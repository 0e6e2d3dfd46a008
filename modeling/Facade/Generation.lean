import Facade.Discovery.Basic
import Facade.Output.Basic
import Facade.Session.Basic

/-!
# Generation

**Input.**  A tree of files, the virtual machine, and what to generate from which inputs.

**Algorithm.**  Declarations are discovered, exported in one session, and written below the output
directory, which is cleared before unless this is not wanted.  An output directory close to the root
is never cleared.

**Results.**
* `store_run_of_unguarded`, `store_run_of_undiscovered` and `store_run_of_unstarted`: nothing is
  written or removed unless the output directory may be cleared and discovery and the session
  succeed.
-/

namespace Facade
namespace Generation

/-- What to generate, and how. -/
structure Options extends Discovery.Options where
  /-- The output directory. -/
  directory : Path
  /-- Whether everything is generated in the root package. -/
  erasePackage : Bool := false
  /-- Whether the output directory is cleared first. -/
  clear : Bool := true

/-- Why nothing is generated. -/
inductive Error where
  /-- The directory that would be cleared cannot be found. -/
  | badDirectory (cause : FileError)
  /-- The directory that would be cleared is too close to the root. -/
  | nearRoot (directory : Path)
  /-- The declarations cannot be found. -/
  | discovery (cause : Discovery.Error)
  /-- The session cannot start. -/
  | session (cause : Session.StartError)
  /-- The output cannot be written. -/
  | output (cause : Output.Error)

/-- What is said when nothing is generated. -/
def Error.message : Error → String
  | .badDirectory e => e.message
  | .nearRoot directory =>
      "output_dir '" ++ directory.text ++
        "' is dangerously close to the filesystem root, refusing to delete it."
  | .discovery e => e.message
  | .session e => e.message
  | .output e => e.message

/-- Whether a directory is too close to the root to be removed. -/
def isNearRoot (s : Store) (directory : Path) : Bool :=
  (s.resolve directory).length < 2

/-- Refuses an output directory that is to be cleared and must not be. -/
def checkDirectory (s : Store) (o : Options) : Except Error Unit :=
  if !o.clear then .ok ()
  else if o.directory.hasNull then .error (.badDirectory ⟨.nullCharacter, o.directory⟩)
  else if isNearRoot s o.directory then .error (.nearRoot o.directory)
  else .ok ()

/-- What was done, and the diagnostics or why there are none. -/
structure Outcome where
  store : Store
  calls : List MachineCall := []
  log : List Log.Line := []
  result : Except Error (List Diagnostic)

/-- The lines that sum up a run; a run is too short to be timed. -/
def summaryLines (directory : Path) (written : Output.Written) (diagnostics : List Diagnostic) :
    List Log.Line :=
  Log.info ("Wrote " ++ toString written.length ++ " file(s) to " ++ directory.text ++
      " in 0.00s, " ++ toString diagnostics.length ++ " declaration(s) skipped") ::
    diagnostics.map fun d => Log.error d.text

/-- The tree that the output is written to. -/
def prepare (s : Store) (o : Options) : Store :=
  if o.clear then s.removeTree o.directory else s

/-- Writes the results of a session and the manifest. -/
def deliver (s : Store) (o : Options) (results : List ExportResult)
    (diagnostics : List Diagnostic) : Outcome :=
  let output := Output.write o.directory (prepare s o) results
  match output.result with
  | .error e => { store := output.store, log := output.log, result := .error (.output e) }
  | .ok written =>
      match Output.writeManifest o.directory output.store written with
      | (next, .error e) => { store := next, log := output.log, result := .error (.output e) }
      | (next, .ok ()) =>
          { store := next
            log := output.log ++ summaryLines o.directory written diagnostics
            result := .ok diagnostics }

/-- Generates the wrappers of the declarations of the inputs. -/
def run (s : Store) (m : Machine) (o : Options) (inputs : List Path) (specs : List InstanceSpec) :
    Outcome :=
  match checkDirectory s o with
  | .error e => { store := s, result := .error e }
  | .ok () =>
      let found := Discovery.run s m o.toOptions inputs specs
      match found.result with
      | .error e =>
          { store := s, calls := found.calls, log := found.log, result := .error (.discovery e) }
      | .ok findings =>
          match Session.run findings.requests findings.extraExceptions o.erasePackage with
          | .error e =>
              { store := s, calls := found.calls, log := found.log, result := .error (.session e) }
          | .ok session =>
              let diagnostics :=
                findings.diagnostics ++ session.results.flatMap ExportResult.diagnostics
              let last := deliver s o session.results diagnostics
              { last with calls := found.calls, log := found.log ++ session.log ++ last.log }

/-- Nothing is written if the output directory is refused. -/
theorem store_run_of_unguarded
    (s : Store) (m : Machine) (o : Options) (inputs : List Path) (specs : List InstanceSpec)
    (e : Error)
    (hdirectory : checkDirectory s o = .error e) :
    (run s m o inputs specs).store = s := by
  simp [run, hdirectory]

/-- Nothing is written if the inputs cannot be read or the machine does not start. -/
theorem store_run_of_undiscovered
    (s : Store) (m : Machine) (o : Options) (inputs : List Path) (specs : List InstanceSpec)
    (e : Discovery.Error)
    (hfound : (Discovery.run s m o.toOptions inputs specs).result = .error e) :
    (run s m o inputs specs).store = s := by
  rw [run]
  split
  · rfl
  · simp [hfound]

/-- Nothing is written if the session does not start. -/
theorem store_run_of_unstarted
    (s : Store) (m : Machine) (o : Options) (inputs : List Path) (specs : List InstanceSpec)
    (findings : Discovery.Findings) (e : Session.StartError)
    (hfound : (Discovery.run s m o.toOptions inputs specs).result = .ok findings)
    (hstart : Session.run findings.requests findings.extraExceptions o.erasePackage = .error e) :
    (run s m o inputs specs).store = s := by
  rw [run]
  split
  · rfl
  · simp [hfound, hstart]

end Generation
end Facade
