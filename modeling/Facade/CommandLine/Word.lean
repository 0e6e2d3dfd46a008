import Facade.CommandLine.Option

/-!
# Words of a command line

**Input.**  The words of a command line.

**Algorithm.**  A word that starts with a dash is an option when it is one of the spellings, a
spelling with an equals sign and more after it, the start of a long spelling, or a short spelling
with more letters after it.  An equals sign after a short spelling means nothing.  Other words with
a dash are inputs when they look like negative numbers or hold a space.  After a word of two dashes
all words are inputs.
-/

namespace Facade
namespace CommandLine

/-- What is attached to an option in the same word. -/
inductive Attached where
  /-- Nothing. -/
  | nothing
  /-- What follows a long spelling after an equals sign. -/
  | value (text : String)
  /-- What follows a short spelling. -/
  | letters (cs : List Char)
deriving DecidableEq, Repr

/-- The part that a word has in a command line. -/
inductive Word where
  /-- An input, or the value of an option. -/
  | plain (text : String)
  /-- The two dashes after which all words are plain. -/
  | separator
  /-- An option. -/
  | choice (choice : Choice) (attached : Attached)
  /-- A word that looks like an option and is none. -/
  | unknown (text : String)
deriving DecidableEq, Repr

/-- The two dashes in front of long spellings. -/
def dashes : String := "--"

/-- The options that a word with two dashes may stand for, by the start of their spelling. -/
def candidates (start : List Char) : List (String × Choice) :=
  Choice.table.filter fun entry => (Text.afterChars? start entry.1.toList).isSome

/-- Whether all characters are decimal digits, and there is one. -/
def areDigits (cs : List Char) : Bool :=
  !cs.isEmpty && cs.all Text.isDecimal

/-- Whether a word without its dash looks like a number; a line end at its end does not count. -/
def looksNumeric (cs : List Char) : Bool :=
  let body := if cs.getLast? = some '\n' then cs.dropLast else cs
  areDigits body ||
    match Text.cutFirst? '.' body with
    | some (whole, fraction) => whole.all Text.isDecimal && areDigits fraction
    | none => false

/-- A word that starts with a dash and is no spelling of an option. -/
def leftover (text : String) (rest : List Char) : Word :=
  if looksNumeric rest || text.toList.contains ' ' then .plain text else .unknown text

/-- What is attached to a spelling by an equals sign. -/
def attach : (spelling after : List Char) → Attached
  | '-' :: '-' :: _, after => .value (String.ofList after)
  | _, after => .letters after

/-- What an equals sign cuts off: the word before it, and what is attached. -/
def cutValue (cs : List Char) : List Char × Attached :=
  match Text.cutFirst? '=' cs with
  | some (before, after) => (before, attach before after)
  | none => (cs, .nothing)

/-- Reads a word that starts with a dash and is neither a spelling nor a single dash. -/
def readDashed (text : String) : Except UsageError Word :=
  let (before, attached) := cutValue text.toList
  match Choice.ofSpelling? (String.ofList before) with
  | some c => .ok (.choice c attached)
  | none =>
      match text.toList with
      | '-' :: '-' :: rest =>
          match candidates before with
          | [] => .ok (leftover text ('-' :: rest))
          | [(_, c)] => .ok (.choice c attached)
          | several => .error (.ambiguous text (several.map Prod.fst))
      | '-' :: c :: first :: rest =>
          match Choice.ofSpelling? (String.ofList ['-', c]) with
          | some short => .ok (.choice short (.letters (first :: rest)))
          | none => .ok (leftover text (c :: first :: rest))
      | _ :: rest => .ok (leftover text rest)
      | [] => .ok (.plain text)

/-- Reads a word that is not behind two dashes. -/
def readWord (text : String) : Except UsageError Word :=
  match text.toList with
  | [] => .ok (.plain text)
  | [_] => .ok (.plain text)
  | c :: _ =>
      if c ≠ '-' then .ok (.plain text)
      else readDashed text

/-- Reads the words of a command line. -/
def readWords : List String → Except UsageError (List Word)
  | [] => .ok []
  | text :: rest =>
      if text = dashes then .ok (.separator :: rest.map .plain)
      else do
        let word ← readWord text
        let words ← readWords rest
        .ok (word :: words)

end CommandLine
end Facade
