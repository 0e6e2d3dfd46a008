import Facade.Compiled.Describe
import Facade.Discovery.ClassFile
import Facade.Discovery.Classpath
import Facade.Log
import Facade.Session.Request

/-!
# Discovery

**Input.**  The inputs of a run, what the virtual machine tells about the classes, and the
instantiations that were asked for by text.

**Algorithm.**  A directory is made for what has to be extracted, and the class path is handed to
the virtual machine, which may raise an exception.  Every class of the inputs is inspected on its
own: an annotated class is described and becomes a request, an exception is noted, and the
instantiations that its annotations ask for are collected.  Then the instantiations are looked up,
those asked for by text first.
-/

namespace Facade

/-- Where the virtual machine is. -/
inductive MachinePath where
  /-- Where it usually is. -/
  | usual
  /-- At a path. -/
  | given (path : String)
  /-- At a path that was left blank. -/
  | blank
deriving DecidableEq, Repr

/-- What is asked of the virtual machine. -/
inductive MachineCall where
  /-- Start, with the path of the machine and a class path. -/
  | start (machine : MachinePath) (classpath : List String)
  /-- Add an entry to the class path of a machine that runs already. -/
  | add (entry : String)
deriving DecidableEq, Repr

/-- What a run knows about the virtual machine. -/
structure Machine where
  /-- Whether it runs already. -/
  started : Bool := false
  /-- What it tells about classes. -/
  classes : Compiled.Classes := []
  /-- The text of the exception that it raises when something is asked of it. -/
  raises : MachineCall → Option String := fun _ => none
  /-- The directory that is made for what has to be extracted. -/
  extractDirectory : Path := ⟨.current, ["extracted"]⟩

namespace Discovery

/-- The annotation that declarations to export usually carry. -/
def usualExportMarker : String := "deezer.kustom.KustomExport"

/-- The annotation that usually asks for instantiations. -/
def usualGenericsMarker : String := "deezer.kustom.KustomExportGenerics"

/-- What is looked for, and with which machine. -/
structure Options where
  /-- The annotation of the declarations to export; without one, nothing is annotated. -/
  exportMarker : Option String := some usualExportMarker
  /-- The annotation that asks for instantiations; without one, none does. -/
  genericsMarker : Option String := some usualGenericsMarker
  /-- The path of the virtual machine. -/
  machinePath : MachinePath := .usual
deriving DecidableEq, Repr

namespace Options

/-- Whether a class is one of the declarations to export. -/
def marks (o : Options) (c : Compiled.Class) : Compiled.Answer Bool :=
  c.isMarked o.exportMarker

/-- The instantiations that the annotations of a class ask for. -/
def specsOf (o : Options) (c : Compiled.Class) : Compiled.Answer (List InstanceSpec) :=
  c.instanceSpecs o.genericsMarker

end Options

/-- What is found. -/
structure Findings where
  requests : List Request := []
  extraExceptions : List Shape := []
  diagnostics : List Diagnostic := []

/-- What the inspection of classes gives. -/
structure Survey extends Findings where
  /-- The instantiations that annotations ask for, with the class that carries the annotation. -/
  specs : List (InstanceSpec × Option Location) := []
  log : List Log.Line := []

namespace Survey

/-- Two surveys, one after the other. -/
def append (a b : Survey) : Survey :=
  { requests := a.requests ++ b.requests
    extraExceptions := a.extraExceptions ++ b.extraExceptions
    diagnostics := a.diagnostics ++ b.diagnostics
    specs := a.specs ++ b.specs
    log := a.log ++ b.log }

end Survey

/-- The line about a class that cannot be inspected. -/
def skippingClass (name message : String) : Log.Line :=
  Log.warning ("Skipping " ++ name ++ ": " ++ message)

/-- Inspects one class. -/
def inspect (classes : Compiled.Classes) (o : Options) (name : String) (location : Location) :
    Survey :=
  match classes.load name with
  | .error e => { log := [skippingClass name e.message] }
  | .ok c =>
      let exceptions := if c.model.isThrowable then [Shape.ofBinaryName name [] false] else []
      let seen : Survey := { extraExceptions := exceptions }
      match o.specsOf c with
      | .error e => { seen with log := [skippingClass name e.message] }
      | .ok specs =>
          let asked : Survey := { seen with specs := specs.map fun spec => (spec, some location) }
          match o.marks c with
          | .error e => { asked with log := [skippingClass name e.message] }
          | .ok false => asked
          | .ok true =>
              match c.describe (some location) with
              | .ok d => { asked with requests := [.declaration d [location]] }
              | .error (.refused r) =>
                  { asked with diagnostics := [.ofRefusal (r.placed (some location) none)] }
              | .error e => { asked with log := [skippingClass name e.message] }

/-- Inspects all classes. -/
def inspectAll (classes : Compiled.Classes) (o : Options)
    (locations : Dictionary String Location) : Survey :=
  locations.foldr (fun (name, location) rest => (inspect classes o name location).append rest) {}

/-- Locations without repetitions. -/
def distinct (locations : List Location) : List Location :=
  locations.foldl (fun known l => if l ∈ known then known else known ++ [l]) []

/-- The request for an instantiation. -/
def instanceRequest (classes : Compiled.Classes) (locations : Dictionary String Location)
    (spec : InstanceSpec) (askedAt : Option Location) : Except Refusal Request :=
  let location := locations.get? spec.className
  let described := do
    let c ← classes.load spec.className
    c.describe location
  match described with
  | .ok d =>
      .ok (.generics spec.name d spec.args (distinct (askedAt.toList ++ location.toList)))
  | .error (.refused r) => .error (r.placed location (some spec.name))
  | .error e =>
      .error
        { cause := .cannotLoad spec.className e.message, location := location
          member := some spec.name }

/-- Adds the request for an instantiation, or the diagnostic that says why there is none. -/
def addInstance (classes : Compiled.Classes) (locations : Dictionary String Location)
    (found : Findings) (spec : InstanceSpec × Option Location) : Findings :=
  match instanceRequest classes locations spec.1 spec.2 with
  | .ok r => { found with requests := found.requests ++ [r] }
  | .error refusal =>
      { found with diagnostics := found.diagnostics ++ [.ofRefusal refusal] }

/-- The classes of the inputs with their locations, and what their inspection gives. -/
structure Inspection where
  locations : Dictionary String Location
  survey : Survey

/-- What an inspection and the instantiations asked for by text give. -/
def Inspection.complete (i : Inspection) (classes : Compiled.Classes) (specs : List InstanceSpec) :
    Findings :=
  let asked := specs.map (fun spec => (spec, none)) ++ i.survey.specs
  asked.foldl (addInstance classes i.locations) i.survey.toFindings

/-- What is asked of the machine so that it finds the classes. -/
def machineCalls (started : Bool) (machine : MachinePath) (entries : List String) :
    List MachineCall :=
  if started then entries.map .add else [.start machine entries]

/-- What is logged when the machine has to be started. -/
def machineLines (started : Bool) : List Log.Line :=
  if started then [] else [Log.info "Starting JVM..."]

/-- The lines that sum up what was found. -/
def summaryLines (found : Findings) : List Log.Line :=
  found.diagnostics.map (fun d => Log.warning ("Skipping declaration: " ++ d.text)) ++
    [Log.info ("Found " ++ toString found.requests.length ++ " declaration(s) to export")]

/-- Why nothing can be found. -/
inductive Error where
  /-- The directory for what has to be extracted cannot be made. -/
  | directory (cause : FileError)
  /-- An input cannot be read, or its classes cannot be extracted. -/
  | input (cause : ArchiveError)
  /-- The virtual machine raises an exception with this text. -/
  | machine (text : String)
deriving DecidableEq, Repr

/-- What is said when nothing can be found. -/
def Error.message : Error → String
  | .directory e => e.message
  | .input e => e.message
  | .machine text => text

/-- Asks one thing after the other, until an exception is raised. -/
def askAll (raises : MachineCall → Option String) :
    List MachineCall → List MachineCall × Except Error Unit
  | [] => ([], .ok ())
  | call :: rest =>
      match raises call with
      | some text => ([call], .error (.machine text))
      | none =>
          let (calls, result) := askAll raises rest
          (call :: calls, result)

/-- What was done, and what was found or why nothing was. -/
structure Outcome (α : Type) where
  calls : List MachineCall := []
  log : List Log.Line := []
  result : Except Error α

/-- The class path of the inputs, extracted to a directory that is made for it. -/
def classpathOf (s : Store) (directory : Path) (inputs : List Path) : Except Error Classpath :=
  match s.makeDir directory with
  | .error fault => .error (.directory ⟨fault, directory⟩)
  | .ok made => (Classpath.ofInputs made directory inputs).mapError .input

/-- Inspects the classes of the inputs. -/
def inspectInputs (s : Store) (m : Machine) (o : Options) (inputs : List Path) :
    Outcome Inspection :=
  match classpathOf s m.extractDirectory inputs with
  | .error e => { result := .error e }
  | .ok classpath =>
      match askAll m.raises (machineCalls m.started o.machinePath classpath.entries) with
      | (calls, .error e) =>
          { calls := calls, log := machineLines m.started, result := .error e }
      | (calls, .ok ()) =>
          match ClassFile.locations s inputs with
          | .error e =>
              { calls := calls, log := machineLines m.started, result := .error (.input e) }
          | .ok locations =>
              let seen := inspectAll m.classes o locations
              { calls := calls
                log := machineLines m.started ++
                  [Log.info ("Inspecting " ++ toString locations.length ++ " classes...")] ++
                  seen.log
                result := .ok ⟨locations, seen⟩ }

/-- Looks for the declarations to export. -/
def run (s : Store) (m : Machine) (o : Options) (inputs : List Path) (specs : List InstanceSpec) :
    Outcome Findings :=
  let seen := inspectInputs s m o inputs
  match seen.result with
  | .error e => { calls := seen.calls, log := seen.log, result := .error e }
  | .ok inspection =>
      let found := inspection.complete m.classes specs
      { calls := seen.calls, log := seen.log ++ summaryLines found, result := .ok found }

end Discovery
end Facade
