import Facade.Compiled.Model
import Facade.Shape.BinaryName

/-!
# Shapes of compiled types

**Input.**  A type in the signature of a compiled class.

**Algorithm.**  Classes are found by their binary name, variables keep their name, a wildcard stands
for its first lower bound or else its first upper bound, and arrays of primitive types have types of
their own.  Non-null primitive values are compiled to primitive types, so that a boxed class outside
of type arguments stands for a nullable primitive type.

A type that is not told, or that mentions one, has no shape; neither has the array of `void`.
-/

namespace Facade
namespace Compiled

namespace TypeRef

/-- The shape of an array of primitive values. -/
def primitiveArray (component : String) : Answer Shape :=
  match Shape.primitiveArrays.get? component with
  | some name => .ok (.kotlin name)
  | none => .error .voidArray

mutual

/-- The shape of a type inside another one. -/
def shape : TypeRef → Answer Shape
  | named name => .ok (.ofBinaryName name [] false)
  | parameterized className args => do .ok (.ofBinaryName className (← shapes args) false)
  | typeVar name => .ok { name }
  | wildcard lower upper => do
      match ← firstShape lower with
      | some s => .ok s
      | none => .ok ((← firstShape upper).getD .any)
  | genericArray component => do .ok (.arrayOf (← component.shape))
  | array (named name) =>
      if name ∈ primitiveNames then primitiveArray name
      else .ok (.arrayOf (.ofBinaryName name [] false))
  | array component => do .ok (.arrayOf (← component.shape))
  | untold cause => .error cause

/-- The shapes of a list of types. -/
def shapes : List TypeRef → Answer (List Shape)
  | [] => .ok []
  | t :: rest => do
      let s ← t.shape
      let ss ← shapes rest
      .ok (s :: ss)

/-- The shape of the first of some bounds. -/
def firstShape : List TypeRef → Answer (Option Shape)
  | [] => .ok none
  | t :: _ => do .ok (some (← t.shape))

end

/-- The shape of the type of a member or parameter. -/
def memberShape : TypeRef → Answer Shape
  | named name => .ok (.ofBinaryName name [] (Shape.boxed.has name))
  | t => t.shape

end TypeRef

end Compiled
end Facade
