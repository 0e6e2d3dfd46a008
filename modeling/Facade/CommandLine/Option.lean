import Facade.Discovery.Spec
import Facade.Discovery.Basic
import Facade.Text.Decimal

/-!
# Command-line options

The options of the command line with their spellings, and the settings that they change.
-/

namespace Facade
namespace CommandLine

/-- The options, in the order in which they are listed. -/
inductive Choice where
  | help
  | outputDir
  | erasePackage
  | exportGenerics
  | exportMarker
  | genericsMarker
  | jvmpath
  | noClean
  | jobs
  | verbose
deriving DecidableEq, Repr, Inhabited

namespace Choice

/-- All options. -/
def all : List Choice :=
  [help, outputDir, erasePackage, exportGenerics, exportMarker, genericsMarker, jvmpath, noClean,
    jobs, verbose]

/-- The spellings of an option. -/
def spellings : Choice → List String
  | help => ["-h", "--help"]
  | outputDir => ["--output-dir"]
  | erasePackage => ["--erase-package"]
  | exportGenerics => ["--export-generics"]
  | exportMarker => ["--annotation"]
  | genericsMarker => ["--generics-annotation"]
  | jvmpath => ["--jvmpath"]
  | noClean => ["--no-clean"]
  | jobs => ["--jobs"]
  | verbose => ["-v", "--verbose"]

/-- The name of an option in messages. -/
def label (c : Choice) : String :=
  "/".intercalate c.spellings

/-- Whether an option takes a value. -/
def takesValue : Choice → Bool
  | help | erasePackage | noClean | verbose => false
  | _ => true

/-- Every spelling with its option. -/
def table : List (String × Choice) :=
  all.flatMap fun c => c.spellings.map fun s => (s, c)

/-- The option with a spelling. -/
def ofSpelling? (s : String) : Option Choice :=
  (table.find? fun entry => entry.1 == s).map Prod.snd

end Choice

/-- The settings of a run.  An option whose value was left blank has no value. -/
structure Settings where
  inputs : List String := []
  outputDir : Option String := some "./build/generated/kustom-export"
  erasePackage : Bool := false
  exportGenerics : List (Option InstanceSpec) := []
  exportMarker : Option String := some Discovery.usualExportMarker
  genericsMarker : Option String := some Discovery.usualGenericsMarker
  jvmpath : MachinePath := .usual
  noClean : Bool := false
  jobs : Option Int
  verbose : Bool := false
deriving DecidableEq, Repr

/-- The number of jobs when none is given: the number of processors, or one when it is not known. -/
def defaultJobs : Option Int → Int
  | none => 1
  | some 0 => 1
  | some n => n

/-- What is wrong with a command line. -/
inductive UsageError where
  /-- A word is the start of several options. -/
  | ambiguous (word : String) (candidates : List String)
  /-- An option lacks its value. -/
  | noValue (choice : Choice)
  /-- An option that takes no value is given one. -/
  | needlessValue (choice : Choice) (value : String)
  /-- A number was expected. -/
  | notNumber (choice : Choice) (value : String)
  /-- A value asks for no instantiation. -/
  | badSpec (choice : Choice) (cause : InstanceSpec.Error)
  /-- There are no inputs. -/
  | noInputs
  /-- There are words that mean nothing. -/
  | unrecognized (words : List String)
  /-- An input is neither a library nor a directory. -/
  | badInput (input : String)
  /-- The number of jobs is not positive. -/
  | tooFewJobs
deriving DecidableEq, Repr

/-- What is said about an option. -/
def optionMessage (c : Choice) (message : String) : String :=
  "argument " ++ c.label ++ ": " ++ message

/-- What is said about a command line that is wrong. -/
def UsageError.message : UsageError → String
  | .ambiguous word candidates =>
      "ambiguous option: " ++ word ++ " could match " ++ ", ".intercalate candidates
  | .noValue c => optionMessage c "expected one argument"
  | .needlessValue c value => optionMessage c ("ignored explicit argument " ++ Text.quoted value)
  | .notNumber c value => optionMessage c ("invalid int value: " ++ Text.quoted value)
  | .badSpec c e => optionMessage c e.message
  | .noInputs => "the following arguments are required: inputs"
  | .unrecognized words => "unrecognized arguments: " ++ " ".intercalate words
  | .badInput input =>
      "Input " ++ Text.quoted input ++ " is neither a .jar/.aar file nor a directory."
  | .tooFewJobs => "--jobs must be at least 1"

/-- Why a command line asks for no run. -/
inductive Stop where
  /-- It asks for help. -/
  | help
  /-- It is wrong. -/
  | usage (error : UsageError)
deriving DecidableEq, Repr

namespace Stop

/-- The exit status. -/
def status : Stop → Nat
  | help => 0
  | usage _ => 2

/-- What is said, if anything. -/
def message? : Stop → Option String
  | help => none
  | usage e => some e.message

end Stop

namespace Settings

/-- The settings after an option that takes no value. -/
def switch (s : Settings) : Choice → Except Stop Settings
  | .help => .error .help
  | .erasePackage => .ok { s with erasePackage := true }
  | .noClean => .ok { s with noClean := true }
  | .verbose => .ok { s with verbose := true }
  | _ => .ok s

/-- The settings after an option with its value. -/
def assign (s : Settings) (c : Choice) (value : String) : Except Stop Settings :=
  match c with
  | .outputDir => .ok { s with outputDir := some value }
  | .exportMarker => .ok { s with exportMarker := some value }
  | .genericsMarker => .ok { s with genericsMarker := some value }
  | .jvmpath => .ok { s with jvmpath := .given value }
  | .exportGenerics =>
      match InstanceSpec.parse value with
      | .ok spec => .ok { s with exportGenerics := s.exportGenerics ++ [some spec] }
      | .error e => .error (.usage (.badSpec c e))
  | .jobs =>
      match Text.readInt? value with
      | some n => .ok { s with jobs := some n }
      | none => .error (.usage (.notNumber c value))
  | _ => .ok s

/-- The settings after an option whose value is left blank. -/
def leaveBlank (s : Settings) : Choice → Settings
  | .outputDir => { s with outputDir := none }
  | .exportMarker => { s with exportMarker := none }
  | .genericsMarker => { s with genericsMarker := none }
  | .jvmpath => { s with jvmpath := .blank }
  | .exportGenerics => { s with exportGenerics := s.exportGenerics ++ [none] }
  | .jobs => { s with jobs := none }
  | _ => s

/-- The settings after several options that take no value. -/
def switchAll (s : Settings) (choices : List Choice) : Except Stop Settings :=
  choices.foldlM switch s

end Settings

end CommandLine
end Facade
