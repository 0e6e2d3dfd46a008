import Facade.CommandLine.Parse
import Facade.Generation

/-!
# The command line

**Input.**  The words of a command line, a tree of files and the virtual machine.

**Algorithm.**  The settings are read, the inputs are checked to be libraries or directories, and a
generation is run.  Diagnostics make the run fail in the end.  A value that was left blank breaks
the run off where it is needed.
-/

namespace Facade
namespace CommandLine

/-- Why a run breaks off. -/
inductive Breakdown where
  /-- An input cannot be looked up. -/
  | input (cause : FileError)
  /-- The number of jobs was left blank. -/
  | noJobs
  /-- The output directory was left blank. -/
  | noDirectory
  /-- An instantiation was left blank. -/
  | noSpec
  /-- Nothing could be generated. -/
  | generation (cause : Generation.Error)

/-- What is said when a run breaks off. -/
def Breakdown.message : Breakdown → String
  | .input e => e.message
  | .noJobs => "'<' not supported between instances of 'list' and 'int'"
  | .noDirectory => "expected str, bytes or os.PathLike object, not list"
  | .noSpec => "'list' object has no attribute 'class_name'"
  | .generation e => e.message

/-- How a run ends. -/
inductive Ending where
  /-- It came to its end. -/
  | exit (status : Nat)
  /-- The command line asked for no generation. -/
  | stopped (stop : Stop)
  /-- It broke off. -/
  | failed (cause : Breakdown)

/-- What was done, and how it ended. -/
structure Outcome where
  store : Store
  calls : List MachineCall := []
  log : List Log.Line := []
  ending : Ending

/-- The path of an input, which has to be a library or a directory. -/
def inputPath (s : Store) (input : String) : Except Ending Path := do
  let path := Path.ofString input
  (s.checkLength path).mapError fun e => .failed (.input e)
  if ((path.isJar || path.isAar) && s.isFile path) || s.isDir path then .ok path
  else .error (.stopped (.usage (.badInput input)))

/-- Refuses a number of jobs that is not positive. -/
def checkJobs : Option Int → Except Ending Unit
  | none => .error (.failed .noJobs)
  | some jobs => if jobs < 1 then .error (.stopped (.usage .tooFewJobs)) else .ok ()

/-- The path of the output directory. -/
def outputPath : Option String → Except Ending Path
  | none => .error (.failed .noDirectory)
  | some text => .ok (.ofString text)

/-- What settings ask to be generated below a directory. -/
def Settings.generation (settings : Settings) (directory : Path) : Generation.Options :=
  { directory := directory
    exportMarker := settings.exportMarker
    genericsMarker := settings.genericsMarker
    machinePath := settings.jvmpath
    erasePackage := settings.erasePackage
    clear := !settings.noClean }

/-- The least level of the lines that are shown. -/
def Settings.level (settings : Settings) : Log.Level :=
  if settings.verbose then .debug else .info

/-- The line that opens a run. -/
def openingLine (paths : List Path) (directory : Path) : Log.Line :=
  Log.info ("Generating facades for " ++ Text.quotedList (paths.map Path.text) ++ " to " ++
    directory.text)

/-- The line that closes a run; a run is too short to be timed. -/
def closingLine : Log.Line :=
  Log.info "Generation done in 0.0s."

/-- Runs a generation to its end. -/
def generate (s : Store) (m : Machine) (o : Generation.Options) (paths : List Path)
    (specs : List InstanceSpec) : Outcome :=
  let done := Generation.run s m o paths specs
  match done.result with
  | .error e =>
      { store := done.store, calls := done.calls, log := done.log
        ending := .failed (.generation e) }
  | .ok diagnostics =>
      { store := done.store, calls := done.calls, log := done.log ++ [closingLine]
        ending := .exit (if diagnostics.isEmpty then 0 else 1) }

/-- Runs a generation up to the point where an instantiation that was left blank breaks it off. -/
def breakOff (s : Store) (m : Machine) (o : Generation.Options) (paths : List Path) : Outcome :=
  match Generation.checkDirectory s o with
  | .error e => { store := s, ending := .failed (.generation e) }
  | .ok () =>
      let seen := Discovery.inspectInputs s m o.toOptions paths
      { store := s, calls := seen.calls, log := seen.log
        ending := match seen.result with
          | .error e => .failed (.generation (.discovery e))
          | .ok _ => .failed .noSpec }

/-- Runs the generation that settings ask for, and shows the lines that they want to see. -/
def start (s : Store) (m : Machine) (settings : Settings) (paths : List Path) (directory : Path) :
    Outcome :=
  let o := settings.generation directory
  let done := match settings.exportGenerics.mapM id with
    | some specs => generate s m o paths specs
    | none => breakOff s m o paths
  { done with log := Log.atLeast settings.level (openingLine paths directory :: done.log) }

/-- The inputs and the output directory of settings that can be run. -/
def check (s : Store) (settings : Settings) : Except Ending (List Path × Path) := do
  let paths ← settings.inputs.mapM (inputPath s)
  checkJobs settings.jobs
  .ok (paths, ← outputPath settings.outputDir)

/-- Runs a command line. -/
def run (s : Store) (m : Machine) (processors : Option Int) (words : List String) : Outcome :=
  match parse processors words with
  | .error stop => { store := s, ending := .stopped stop }
  | .ok settings =>
      match check s settings with
      | .error ending => { store := s, ending := ending }
      | .ok (paths, directory) => start s m settings paths directory

end CommandLine
end Facade
