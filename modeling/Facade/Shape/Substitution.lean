import Facade.Shape.Basic
import Facade.Dictionary

/-!
# Substitution of type variables

**Input.**  A binding of type variables to shapes.

**Algorithm.**  Every type variable that is bound is replaced by its shape, at every depth at once.
A variable marked nullable makes the shape that replaces it nullable.

**Results.**
* `substituteAll_eq_map`: the list companion of the recursion is a map.
* `substitute_nil`: the empty binding changes nothing.
-/

namespace Facade

/-- Shapes for type variables. -/
abbrev Binding := Dictionary String Shape

namespace Shape

mutual

/-- The shape with every bound type variable replaced. -/
def substitute (b : Binding) : Shape → Shape
  | ⟨name, package, args, nullable⟩ =>
      if package.isEmpty && args.isEmpty then
        match b.get? name with
        | some bound => bound.withNullable (bound.nullable || nullable)
        | none => ⟨name, package, args, nullable⟩
      else ⟨name, package, substituteAll b args, nullable⟩

/-- The shapes with every bound type variable replaced. -/
def substituteAll (b : Binding) : List Shape → List Shape
  | [] => []
  | s :: rest => s.substitute b :: substituteAll b rest

end

theorem substituteAll_eq_map
    (b : Binding) (shapes : List Shape) :
    substituteAll b shapes = shapes.map (substitute b) := by
  induction shapes with
  | nil => rfl
  | cons s rest ih => simp [substituteAll, ih]

mutual

/-- Without a binding nothing is replaced. -/
theorem substitute_nil : (s : Shape) → s.substitute [] = s
  | ⟨name, package, args, nullable⟩ => by
      rw [substitute, substituteAll_nil args]
      split <;> simp [Dictionary.get?]

theorem substituteAll_nil : (shapes : List Shape) → substituteAll [] shapes = shapes
  | [] => rfl
  | s :: rest => by rw [substituteAll, substitute_nil s, substituteAll_nil rest]

end

end Shape

end Facade
