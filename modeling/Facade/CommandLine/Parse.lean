import Facade.CommandLine.Word
import Facade.Outcome

/-!
# Reading a command line

**Input.**  The words of a command line.

**Algorithm.**  All words are read first.  Then they are taken from left to right: the first run
of plain words between options gives the inputs, later ones are left over; an option that needs a
value has it in its own word, where two dashes leave it blank, or takes the plain word after it;
short options may share a word.  What is left over is refused in the end.

**Results.**
* `parse_inputs_ne_nil`: a command line that is accepted names an input.
-/

namespace Facade
namespace CommandLine

/-- How far the inputs have been read. -/
inductive Phase where
  | before
  | during
  | after
deriving DecidableEq, Repr

/-- What has been read of a command line. -/
structure Progress where
  settings : Settings
  phase : Phase := .before
  /-- The words that mean nothing. -/
  extras : List String := []

namespace Progress

/-- Keeps a word that means nothing. -/
def addExtra (p : Progress) (text : String) : Progress :=
  { p with extras := p.extras ++ [text] }

/-- Takes a plain word. -/
def addPlain (p : Progress) (text : String) : Progress :=
  if p.phase = .after then p.addExtra text
  else
    { p with
      phase := .during
      settings := { p.settings with inputs := p.settings.inputs ++ [text] } }

/-- Takes the two dashes, which say nothing among the inputs. -/
def addSeparator (p : Progress) : Progress :=
  if p.phase = .after then p.addExtra dashes else p

/-- Ends the run of inputs, if there was one. -/
def close (p : Progress) : Progress :=
  if p.phase = .during then { p with phase := .after } else p

/-- Takes an option with its value. -/
def assign (p : Progress) (c : Choice) (value : String) : Except Stop Progress := do
  .ok { p.close with settings := ← p.settings.assign c value }

/-- Takes an option with the value in its own word, where two dashes leave it blank. -/
def assignAttached (p : Progress) (c : Choice) (value : String) : Except Stop Progress :=
  if value = dashes then .ok { p.close with settings := p.settings.leaveBlank c }
  else p.assign c value

/-- Takes options that take no value. -/
def switchAll (p : Progress) (choices : List Choice) : Except Stop Progress := do
  .ok { p.close with settings := ← p.settings.switchAll choices }

end Progress

/-- The options of a word that starts with the short spelling of `c`: every further character has to
be the letter of an option. -/
def expand (c : Choice) : List Char → Except UsageError (List Choice)
  | [] => .error (.needlessValue c "")
  | first :: rest =>
      match Choice.ofSpelling? (String.ofList ['-', first]) with
      | none => .error (.needlessValue c (String.ofList (first :: rest)))
      | some d => if rest.isEmpty then .ok [c, d] else (expand d rest).map (c :: ·)

/-- The options of a word whose option takes no value. -/
def expandAttached (c : Choice) : Attached → Except UsageError (List Choice)
  | .nothing => .ok [c]
  | .value text => .error (.needlessValue c text)
  | .letters cs => expand c cs

/-- The value that stands in the same word as its option. -/
def Attached.text? : Attached → Option String
  | nothing => none
  | value text => some text
  | letters cs => some (String.ofList cs)

/-- Takes words from left to right. -/
def takeWords (p : Progress) : List Word → Except Stop Progress
  | [] => .ok p
  | .plain text :: rest => takeWords (p.addPlain text) rest
  | .separator :: rest => takeWords p.addSeparator rest
  | .unknown text :: rest => takeWords (p.close.addExtra text) rest
  | .choice c attached :: rest =>
      if c.takesValue then
        match attached.text?, rest with
        | some value, rest => do takeWords (← p.assignAttached c value) rest
        | none, .plain value :: rest => do takeWords (← p.assign c value) rest
        | none, _ => .error (.usage (.noValue c))
      else do
        let choices ← (expandAttached c attached).mapError .usage
        takeWords (← p.switchAll choices) rest

/-- The settings, when there are inputs and nothing is left over. -/
def finish (p : Progress) : Except UsageError Settings :=
  if p.settings.inputs.isEmpty then .error .noInputs
  else if p.extras.isEmpty then .ok p.settings
  else .error (.unrecognized p.extras)

/-- The settings that a command line asks for. -/
def parse (processors : Option Int) (words : List String) : Except Stop Settings := do
  let read ← (readWords words).mapError .usage
  let p ← takeWords { settings := { jobs := some (defaultJobs processors) } } read
  (finish p).mapError .usage

/-- A command line is accepted exactly if it names an input and nothing is left over. -/
theorem finish_eq_ok_iff
    {p : Progress} {s : Settings} :
    finish p = .ok s ↔ p.settings.inputs ≠ [] ∧ p.extras = [] ∧ s = p.settings := by
  rw [finish]
  split
  · next h => simp_all
  · split
    · next hi he =>
        simp only [Except.ok.injEq]
        constructor
        · rintro rfl
          simp_all
        · rintro ⟨_, _, rfl⟩
          rfl
    · next hi he => simp_all

/-- A command line that is accepted names an input. -/
theorem parse_inputs_ne_nil
    {processors : Option Int} {words : List String} {s : Settings}
    (h : parse processors words = .ok s) :
    s.inputs ≠ [] := by
  rw [parse] at h
  obtain ⟨read, _, h⟩ := Outcome.bind_eq_ok_iff.1 h
  obtain ⟨p, _, h⟩ := Outcome.bind_eq_ok_iff.1 h
  obtain ⟨hinputs, _, rfl⟩ := finish_eq_ok_iff.1 (Outcome.mapError_eq_ok_iff.1 h)
  exact hinputs

end CommandLine
end Facade
