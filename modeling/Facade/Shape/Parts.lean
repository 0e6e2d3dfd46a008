import Facade.Shape.Builtin

/-!
# Parts of shapes

**Input.**  Shapes with their type arguments.

**Algorithm.**  The parts of a shape are the shape itself and the parts of its type arguments, from
left to right.  Whoever writes a shape has to tell for every part whether it is a function type, so
the first part whose number cannot be read stops the writing.

**Results.**
* `partsAll_eq_flatMap`: the list companion of the mutual recursion collects the parts of its
  members.
* `checkNumbers_eq_ok_iff`: a list of shapes passes exactly when every number in it can be read.
-/

namespace Facade
namespace Shape

mutual

/-- The shape itself, then its type arguments from left to right, each with its own. -/
def parts : Shape → List Shape
  | ⟨name, package, args, nullable⟩ => ⟨name, package, args, nullable⟩ :: partsAll args

/-- The parts of a list of shapes. -/
def partsAll : List Shape → List Shape
  | [] => []
  | s :: rest => s.parts ++ partsAll rest

end

/-- Refuses shapes one of which has a number that cannot be read; the first one decides. -/
def checkNumbers (shapes : List Shape) : Except Text.Overlong Unit :=
  match shapes.findSome? overlong? with
  | some o => .error o
  | none => .ok ()

/-- A type is one of its own parts. -/
theorem self_mem_parts (s : Shape) :
    s ∈ s.parts := by
  cases s
  simp [parts]

theorem partsAll_eq_flatMap (shapes : List Shape) :
    partsAll shapes = shapes.flatMap parts := by
  induction shapes with
  | nil => rfl
  | cons s rest ih => simp [partsAll, ih]

/-- The check of several types fails at the first number that cannot be read. -/
theorem checkNumbers_eq_ok_iff
    {shapes : List Shape} :
    checkNumbers shapes = .ok () ↔ ∀ s ∈ shapes, s.overlong? = none := by
  rw [checkNumbers, ← List.findSome?_eq_none_iff]
  split
  · next h => simp [h]
  · next h => simp [h]

end Shape
end Facade
