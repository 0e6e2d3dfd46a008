import Facade.Shape.Builtin
import Facade.Dictionary

/-!
# Types by their binary name

**Input.**  The binary name of a compiled class or primitive type, as the virtual machine knows it.

**Algorithm.**  Primitive types and their boxed classes stand for the primitive types of Kotlin, a
table gives the other classes that Kotlin has a name of its own for, and function interfaces stand
for function types.  Any other class keeps its name; the nesting sign of inner classes becomes a
dot.
-/

namespace Facade
namespace Shape

/-- The primitive types. -/
def primitives : Dictionary String String :=
  [("boolean", "Boolean"), ("byte", "Byte"), ("char", "Char"), ("short", "Short"), ("int", "Int"),
    ("long", "Long"), ("float", "Float"), ("double", "Double")]

/-- The boxed classes of the primitive types. -/
def boxed : Dictionary String String :=
  [("java.lang.Boolean", "Boolean"), ("java.lang.Byte", "Byte"), ("java.lang.Character", "Char"),
    ("java.lang.Short", "Short"), ("java.lang.Integer", "Int"), ("java.lang.Long", "Long"),
    ("java.lang.Float", "Float"), ("java.lang.Double", "Double")]

/-- The arrays of the primitive types. -/
def primitiveArrays : Dictionary String String :=
  [("boolean", "BooleanArray"), ("byte", "ByteArray"), ("char", "CharArray"),
    ("short", "ShortArray"), ("int", "IntArray"), ("long", "LongArray"), ("float", "FloatArray"),
    ("double", "DoubleArray")]

/-- Classes of the package `java.lang` with the same simple name in the package `kotlin`. -/
def sameNamed : List String :=
  ["String", "CharSequence", "Number", "Comparable", "Throwable", "Exception", "RuntimeException",
    "IllegalArgumentException", "IllegalStateException", "IndexOutOfBoundsException",
    "UnsupportedOperationException", "NumberFormatException", "NullPointerException",
    "ClassCastException", "ArithmeticException", "AssertionError"]

/-- The other classes that have a name of their own. -/
def knownClasses : Dictionary String Key :=
  [("void", ⟨"kotlin", "Unit"⟩), ("java.lang.Void", ⟨"kotlin", "Unit"⟩),
    ("java.lang.Object", ⟨"kotlin", "Any"⟩),
    ("java.lang.Iterable", ⟨"kotlin.collections", "Iterable"⟩),
    ("java.util.Collection", ⟨"kotlin.collections", "Collection"⟩),
    ("java.util.List", ⟨"kotlin.collections", "List"⟩),
    ("java.util.Set", ⟨"kotlin.collections", "Set"⟩),
    ("java.util.Map", ⟨"kotlin.collections", "Map"⟩),
    ("java.util.Iterator", ⟨"kotlin.collections", "Iterator"⟩),
    ("java.util.ConcurrentModificationException", ⟨"kotlin", "ConcurrentModificationException"⟩),
    ("java.util.NoSuchElementException", ⟨"kotlin", "NoSuchElementException"⟩)] ++
    sameNamed.map fun name => ("java.lang." ++ name, ⟨"kotlin", name⟩)

/-- The simple name of a function interface. -/
def functionInterface? (binaryName : String) : Option String := do
  let rest ← Text.afterChars? "kotlin.jvm.functions.".toList binaryName.toList
  let digits ← Text.afterChars? "Function".toList rest
  let _ ← Text.readNat? (dropLineEnd digits)
  some (String.ofList (dropLineEnd rest))

/-- The key of a class that keeps its name. -/
def ownKey (binaryName : String) : Key :=
  let (package, name) := (Text.cutLast? '.' binaryName.toList).getD ([], binaryName.toList)
  ⟨String.ofList package, Text.replaceChar '$' "." (String.ofList name)⟩

/-- The type that a binary name stands for; primitive types take no type arguments. -/
def ofBinaryName (binaryName : String) (args : List Shape) (nullable : Bool) : Shape :=
  match (primitives.get? binaryName).or (boxed.get? binaryName) with
  | some name => (kotlin name).withNullable nullable
  | none =>
      let key :=
        match knownClasses.get? binaryName, functionInterface? binaryName with
        | some key, _ => key
        | none, some name => ⟨"kotlin", name⟩
        | none, none => ownKey binaryName
      ((ofKey key).withArgs args).withNullable nullable

end Shape
end Facade
