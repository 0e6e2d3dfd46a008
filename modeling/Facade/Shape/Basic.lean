/-!
# Type shapes

A type shape is a reference to a type as it stands in a declaration: a simple name, the package it
is declared in, type arguments and a nullability mark.  A shape without package and without type
arguments stands for a type variable.

**Results.**
* `Shape.text` is the readable form that messages show; `Shape.texts_eq_map` says that the list
  companion of the mutual recursion is a map.
* Equality of shapes is decidable.
-/

namespace Facade

/-- What identifies a declared type: its package and its simple name. -/
structure Key where
  package : String
  name : String
deriving DecidableEq, Repr, Inhabited

namespace Key

/-- The dotted name; a type of the root package has its simple name only. -/
def qualified (k : Key) : String :=
  if k.package.isEmpty then k.name else k.package ++ "." ++ k.name

/-- Package and name joined by a dot, also when the package is empty. -/
def joined (k : Key) : String :=
  k.package ++ "." ++ k.name

/-- Keys are ordered by package, then by name. -/
def le (a b : Key) : Bool :=
  a.package < b.package || (a.package == b.package && a.name ≤ b.name)

end Key

/-- A reference to a type. -/
structure Shape where
  name : String
  package : String := ""
  args : List Shape := []
  nullable : Bool := false
deriving Repr, Inhabited

namespace Shape

/-- The key of the type referred to, without arguments and nullability. -/
def key (s : Shape) : Key :=
  ⟨s.package, s.name⟩

/-- The dotted name of the type referred to. -/
def qualified (s : Shape) : String :=
  s.key.qualified

/-- Whether the shape stands for a type variable. -/
def isVariable (s : Shape) : Bool :=
  s.package.isEmpty && s.args.isEmpty

/-- The same reference with the given nullability. -/
def withNullable (s : Shape) (nullable : Bool) : Shape :=
  { s with nullable }

/-- The same reference with the given type arguments. -/
def withArgs (s : Shape) (args : List Shape) : Shape :=
  { s with args }

/-- The reference to the type of a key, without arguments. -/
def ofKey (k : Key) : Shape :=
  { name := k.name, package := k.package }

/-- A question mark for a nullable reference. -/
def mark (nullable : Bool) : String :=
  if nullable then "?" else ""

/-- Type arguments between angle brackets, nothing for no arguments. -/
def bracketed (args : List String) : String :=
  if args.isEmpty then "" else "<" ++ ", ".intercalate args ++ ">"

mutual

/-- The readable form: dotted name, arguments, question mark. -/
def text : Shape → String
  | ⟨name, package, args, nullable⟩ =>
      (Key.mk package name).qualified ++ bracketed (texts args) ++ mark nullable

/-- The readable forms of a list of shapes. -/
def texts : List Shape → List String
  | [] => []
  | s :: rest => s.text :: texts rest

end

theorem texts_eq_map (args : List Shape) :
    texts args = args.map text := by
  induction args with
  | nil => rfl
  | cons s rest ih => simp [texts, ih]

mutual

/-- Decides whether two shapes are equal. -/
def decEq : (s t : Shape) → Decidable (s = t)
  | ⟨n, p, as, b⟩, ⟨n', p', as', b'⟩ =>
      match decEqList as as' with
      | .isTrue has =>
          if h : n = n' ∧ p = p' ∧ b = b' then
            .isTrue (by obtain ⟨hn, hp, hb⟩ := h; rw [hn, hp, hb, has])
          else .isFalse (by intro e; injection e with hn hp _ hb; exact h ⟨hn, hp, hb⟩)
      | .isFalse has => .isFalse (by intro e; injection e with _ _ ha _; exact has ha)

/-- Decides whether two lists of shapes are equal. -/
def decEqList : (ss ts : List Shape) → Decidable (ss = ts)
  | [], [] => .isTrue rfl
  | [], _ :: _ => .isFalse (by simp)
  | _ :: _, [] => .isFalse (by simp)
  | s :: ss, t :: ts =>
      match decEq s t with
      | .isTrue h =>
          match decEqList ss ts with
          | .isTrue hs => .isTrue (by rw [h, hs])
          | .isFalse hs => .isFalse (by simp [hs])
      | .isFalse h => .isFalse (by simp [h])

end

instance : DecidableEq Shape := decEq

@[simp] theorem withNullable_self (s : Shape) :
    s.withNullable s.nullable = s := by
  cases s; rfl

@[simp] theorem nullable_withNullable (s : Shape) (b : Bool) :
    (s.withNullable b).nullable = b := rfl

@[simp] theorem key_withNullable (s : Shape) (b : Bool) :
    (s.withNullable b).key = s.key := rfl

@[simp] theorem key_withArgs (s : Shape) (args : List Shape) :
    (s.withArgs args).key = s.key := rfl

@[simp] theorem key_ofKey (k : Key) :
    (ofKey k).key = k := rfl

end Shape

end Facade
