import Facade.Text.Lines

/-!
# Paths

**Input.**  The text of a path.

**Algorithm.**  A path starts at the current directory, at the root, or, when its text starts with
exactly two slashes, at the alternate root.  Its parts are the pieces of the text between slashes;
empty pieces and single dots do not count.  Files are reached only by paths without null characters
that are short enough, part by part and as a whole.

**Results.**
* `join_relative`: a relative path is appended part by part.
* `relativeTo?_eq_some_iff`: a path has a form relative to a directory exactly when both start at
  the same point and the parts of the directory come first; the form is what follows them.
-/

namespace Facade

/-- Where a path starts. -/
inductive Path.Anchor where
  /-- At the current directory. -/
  | current
  /-- At the root. -/
  | root
  /-- At the alternate root. -/
  | alternate
deriving DecidableEq, Repr, Inhabited

/-- The text in front of the parts. -/
def Path.Anchor.text : Path.Anchor → String
  | current => ""
  | root => "/"
  | alternate => "//"

/-- A path: where it starts, and its parts from there. -/
structure Path where
  anchor : Path.Anchor
  parts : List String
deriving DecidableEq, Repr, Inhabited

namespace Path

/-- Where the path of a text starts. -/
def anchorOf : List Char → Anchor
  | '/' :: '/' :: '/' :: _ => .root
  | '/' :: '/' :: _ => .alternate
  | '/' :: _ => .root
  | _ => .current

/-- Whether a piece of text between slashes is a part of its path. -/
def isPart (piece : String) : Bool :=
  piece ≠ "" && piece ≠ "."

/-- The path of a text. -/
def ofString (s : String) : Path :=
  ⟨anchorOf s.toList, (Text.splitAt '/' s).filter isPart⟩

/-- The text of a path, which is empty for the current directory. -/
def bareText (p : Path) : String :=
  p.anchor.text ++ "/".intercalate p.parts

/-- The text of a path. -/
def text (p : Path) : String :=
  if p.anchor = .current ∧ p.parts = [] then "." else p.bareText

/-- The path that leads from `p` along `q`; a path that starts at a root starts anew. -/
def join (p q : Path) : Path :=
  match q.anchor with
  | .current => ⟨p.anchor, p.parts ++ q.parts⟩
  | _ => q

/-- The path of the directory that holds what a path leads to. -/
def parent (p : Path) : Path :=
  { p with parts := p.parts.dropLast }

/-- The last part of a path. -/
def name (p : Path) : String :=
  p.parts.getLastD ""

/-- The last part cut at its last dot, when there is text on both sides of the dot. -/
def nameParts? (p : Path) : Option (List Char × List Char) :=
  (Text.cutLast? '.' p.name.toList).filter fun (before, after) => !before.isEmpty && !after.isEmpty

/-- The ending of the last part, with its dot. -/
def suffix (p : Path) : String :=
  (p.nameParts?.map fun (_, after) => String.ofList ('.' :: after)).getD ""

/-- The last part without its ending. -/
def stem (p : Path) : String :=
  (p.nameParts?.map fun (before, _) => String.ofList before).getD p.name

/-- Whether a path has an ending, in small or capital letters; the ending is given in small ones.
No letter outside ASCII has a letter of an ending that is asked for as its small form. -/
def hasSuffix (p : Path) (ending : String) : Bool :=
  p.suffix.toList.map Char.toLower == ending.toList

/-- Whether a null character is in a path. -/
def hasNull (p : Path) : Bool :=
  p.parts.any fun part => part.toList.contains '\x00'

/-- The longest part of a path, in bytes. -/
def maxPart : Nat := 255

/-- The longest path, in bytes of its text. -/
def maxText : Nat := 4095

/-- Whether a part is too long to be the name of a file. -/
def isLongPart (part : String) : Bool :=
  maxPart < part.utf8ByteSize

/-- Whether a path is too long as a whole. -/
def isLong (p : Path) : Bool :=
  maxText < p.text.utf8ByteSize

/-- What is left of a list of parts after `head`, when it starts with it. -/
def afterParts? : (head parts : List String) → Option (List String)
  | [], parts => some parts
  | _ :: _, [] => none
  | h :: hs, p :: ps => if h = p then afterParts? hs ps else none

/-- The parts of a path below a directory. -/
def relativeTo? (p base : Path) : Option (List String) :=
  if p.anchor = base.anchor then afterParts? base.parts p.parts else none

/-- Whether parts come before others: the first parts that differ decide, and a shorter list comes
first. -/
def partsLe : (a b : List String) → Bool
  | [], _ => true
  | _ :: _, [] => false
  | x :: xs, y :: ys => if x = y then partsLe xs ys else decide (x < y)

/-- A relative path is appended part by part. -/
theorem join_relative
    (p : Path) (parts : List String) :
    p.join ⟨.current, parts⟩ = ⟨p.anchor, p.parts ++ parts⟩ := rfl

/-- What follows the parts of a head is what has to be appended to it. -/
theorem afterParts?_eq_some_iff
    {head parts rest : List String} :
    afterParts? head parts = some rest ↔ parts = head ++ rest := by
  induction head generalizing parts with
  | nil => simp [afterParts?]
  | cons h hs ih =>
      cases parts with
      | nil => simp [afterParts?]
      | cons p ps =>
          rw [afterParts?]
          split
          · next heq => simp [ih, heq]
          · next hne =>
              simp only [List.cons_append, List.cons.injEq]
              exact ⟨fun h => by simp at h, fun h => absurd h.1.symm hne⟩

/-- A path is relative to a base exactly if it starts where the base does and goes on after it. -/
theorem relativeTo?_eq_some_iff
    {p base : Path} {rest : List String} :
    p.relativeTo? base = some rest ↔ p = ⟨base.anchor, base.parts ++ rest⟩ := by
  cases p with
  | mk anchor parts =>
      simp only [relativeTo?, mk.injEq]
      split
      · next h => simp [afterParts?_eq_some_iff, h]
      · next h => simp [h]

end Path

end Facade
