import Facade.Shape.Builtin

/-!
# Types as source text

The text of a type inside a generated expression.  Types of the packages that need no import are
written by their simple name and all others by their dotted name, so that an expression reads the
same in every file.  Function types are written with an arrow.
-/

namespace Facade
namespace Shape

/-- A function type from the texts of its arguments, the last of which is the result. -/
def arrow (args : List String) (nullable : Bool) : String :=
  let plain := "(" ++ ", ".intercalate args.dropLast ++ ") -> " ++ args.getLastD ""
  if nullable then "(" ++ plain ++ ")?" else plain

/-- The name of a type in an expression. -/
def sourceName (k : Key) : String :=
  if k.package ∈ defaultImports then k.name else k.qualified

mutual

/-- The text of a type in an expression. -/
def source : Shape → String
  | ⟨name, package, args, nullable⟩ =>
      if isFunction ⟨name, package, args, nullable⟩ then arrow (sources args) nullable
      else sourceName ⟨package, name⟩ ++ bracketed (sources args) ++ mark nullable

/-- The texts of a list of types. -/
def sources : List Shape → List String
  | [] => []
  | s :: rest => s.source :: sources rest

end

theorem sources_eq_map (args : List Shape) :
    sources args = args.map source := by
  induction args with
  | nil => rfl
  | cons s rest ih => simp [sources, ih]

/-- The operator that selects a member of a value of this type. -/
def dot (s : Shape) : String :=
  if s.nullable then "?." else "."

end Shape
end Facade
