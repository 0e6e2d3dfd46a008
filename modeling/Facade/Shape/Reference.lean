import Facade.Shape.BinaryName
import Facade.Text.Word
import Facade.Text.Quoted

/-!
# Textual type references

**Input.**  A text such as `foo.Template<kotlin.Long, java.util.List<String>>?`.

**Algorithm.**  The text is cut into names (runs of word characters, dots and dollar signs) and the
signs `<`, `>`, `,` and `?`; blanks only separate.  The tokens have to form a reference

    ref := NAME [ '<' ref { ',' ref } '>' ] [ '?' ]

whose names are then looked up: a name without a dot is of the package `kotlin`, unless it is a
primitive type, and the collections of Kotlin are found under their short names.
-/

namespace Facade

/-- A type reference as it is written. -/
structure Reference where
  name : String
  args : List Reference := []
  nullable : Bool := false
deriving Repr, Inhabited

namespace Reference

/-- The tokens of a type reference. -/
inductive Token where
  | name (text : String)
  | opening
  | closing
  | comma
  | question
deriving DecidableEq, Repr

/-- Why a text is no type reference. -/
inductive Error where
  /-- A name is missing, or a character stands for nothing. -/
  | invalid (text : String)
  /-- A list of type arguments is not closed. -/
  | unbalanced (text : String)
  /-- Something follows the reference. -/
  | trailing (text : String)
deriving DecidableEq, Repr

/-- What is said about a text that is no type reference. -/
def Error.message : Error → String
  | .invalid text => "Invalid type reference " ++ Text.quoted text
  | .unbalanced text => "Unbalanced '<' in type reference " ++ Text.quoted text
  | .trailing text => "Unexpected trailing input in type reference " ++ Text.quoted text

/-- Characters of names. -/
def isNameChar (c : Char) : Bool :=
  Text.isWord c || c = '.' || c = '$'

/-- The sign that a character stands for. -/
def sign? : Char → Option Token
  | '<' => some .opening
  | '>' => some .closing
  | ',' => some .comma
  | '?' => some .question
  | _ => none

/-- The name being read, if any. -/
def pendingName (pending : List Char) : List Token :=
  if pending.isEmpty then [] else [.name (String.ofList pending.reverse)]

/-- The tokens of a text; `pending` holds, in reverse, the name being read. -/
def scan : (pending : List Char) → List Char → Option (List Token)
  | pending, [] => some (pendingName pending)
  | pending, c :: rest =>
      if isNameChar c then scan (c :: pending) rest
      else if Text.isBlank c then (scan [] rest).map (pendingName pending ++ ·)
      else do
        let sign ← sign? c
        let tokens ← scan [] rest
        some (pendingName pending ++ sign :: tokens)

/-- The tokens of a text, unless it holds a character that stands for nothing. -/
def tokens? (text : String) : Option (List Token) :=
  scan [] text.toList

/-- What keeps tokens from being a reference. -/
inductive Defect where
  | noName
  | unclosed
deriving DecidableEq, Repr

/-- The reference of the given name and arguments, nullable if a question mark follows. -/
def finish (name : String) (args : List Reference) : List Token → Reference × List Token
  | .question :: rest => (⟨name, args, true⟩, rest)
  | rest => (⟨name, args, false⟩, rest)

mutual

/-- Reads a reference from the front of the tokens. -/
def read : (fuel : Nat) → List Token → Except Defect (Reference × List Token)
  | fuel + 1, .name name :: .opening :: rest => do
      let (args, rest) ← readArgs fuel rest
      .ok (finish name args rest)
  | _ + 1, .name name :: rest => .ok (finish name [] rest)
  | _, _ => .error .noName

/-- Reads references up to the closing sign. -/
def readArgs : (fuel : Nat) → List Token → Except Defect (List Reference × List Token)
  | 0, _ => .error .noName
  | fuel + 1, tokens => do
      let (arg, rest) ← read fuel tokens
      match rest with
      | .comma :: rest => do
          let (args, rest) ← readArgs fuel rest
          .ok (arg :: args, rest)
      | .closing :: rest => .ok ([arg], rest)
      | _ => .error .unclosed

end

/-- The reference that a text writes; one step more than there are tokens is always enough. -/
def parse (text : String) : Except Error Reference :=
  match tokens? text with
  | none => .error (.invalid text)
  | some tokens =>
      match read (tokens.length + 1) tokens with
      | .error .noName => .error (.invalid text)
      | .error .unclosed => .error (.unbalanced text)
      | .ok (r, []) => .ok r
      | .ok (_, _ :: _) => .error (.trailing text)

/-- The collections that are found under a short name. -/
def shortCollections : List String :=
  ["kotlin.List", "kotlin.Set", "kotlin.Map", "kotlin.Collection"]

/-- The binary name that a written name stands for. -/
def binaryName (name : String) : String :=
  let dotted :=
    if '.' ∉ name.toList ∧ Shape.primitives.has name = false ∧ name ≠ "void" then "kotlin." ++ name
    else name
  if dotted ∈ shortCollections then
    "kotlin.collections." ++ String.ofList (dotted.toList.drop "kotlin.".length)
  else dotted

mutual

/-- The shape that a reference stands for. -/
def shape : Reference → Shape
  | ⟨name, args, nullable⟩ => Shape.ofBinaryName (binaryName name) (shapes args) nullable

/-- The shapes that a list of references stands for. -/
def shapes : List Reference → List Shape
  | [] => []
  | r :: rest => r.shape :: shapes rest

end

end Reference

/-- The shape that a text refers to. -/
def Shape.parse (text : String) : Except Reference.Error Shape :=
  (Reference.parse text).map Reference.shape

end Facade
