import Facade.Shape.Basic
import Facade.Text.Lines
import Facade.Text.Decimal

/-!
# Built-in types

The types of the Kotlin standard library that conversions know about, and function types.

A function type with `n` parameters is written `kotlin.FunctionN` with `n + 1` type arguments, the
last of which is the result.  A shape with another number of arguments is no function type, whatever
its name.  To tell one from the other the number in the name is read, which fails when it has too
many digits.
-/

namespace Facade
namespace Shape

/-- A type of the package `kotlin`. -/
def kotlin (name : String) (args : List Shape := []) : Shape :=
  { name, package := "kotlin", args }

def boolean : Shape := kotlin "Boolean"
def byte : Shape := kotlin "Byte"
def char : Shape := kotlin "Char"
def short : Shape := kotlin "Short"
def int : Shape := kotlin "Int"
def long : Shape := kotlin "Long"
def float : Shape := kotlin "Float"
def double : Shape := kotlin "Double"
def string : Shape := kotlin "String"
def any : Shape := kotlin "Any"
def unit : Shape := kotlin "Unit"

def booleanArray : Shape := kotlin "BooleanArray"
def byteArray : Shape := kotlin "ByteArray"
def charArray : Shape := kotlin "CharArray"
def shortArray : Shape := kotlin "ShortArray"
def intArray : Shape := kotlin "IntArray"
def longArray : Shape := kotlin "LongArray"
def floatArray : Shape := kotlin "FloatArray"
def doubleArray : Shape := kotlin "DoubleArray"

/-- The raw array type. -/
def array : Shape := kotlin "Array"

/-- The raw read-only list type. -/
def list : Shape := { name := "List", package := "kotlin.collections" }

/-- The error type that every exception is shown as. -/
def error : Shape := kotlin "Error"

/-- The annotation that makes a declaration visible to JavaScript. -/
def jsExport : Shape := { name := "JsExport", package := "kotlin.js" }

/-- An array of the given elements. -/
def arrayOf (element : Shape) (nullable : Bool := false) : Shape :=
  { array with args := [element], nullable }

/-- A list of the given elements. -/
def listOf (element : Shape) (nullable : Bool := false) : Shape :=
  { list with args := [element], nullable }

/-- The exceptions that every session knows. -/
def exceptions : List Shape :=
  ["Throwable", "Exception", "RuntimeException", "IllegalArgumentException",
    "IllegalStateException", "IndexOutOfBoundsException", "ConcurrentModificationException",
    "UnsupportedOperationException", "NumberFormatException", "NullPointerException",
    "ClassCastException", "AssertionError", "NoSuchElementException", "ArithmeticException",
    "NoWhenBranchMatchedException", "UninitializedPropertyAccessException"].map (kotlin ·)

/-- The packages whose types need no import. -/
def defaultImports : List String :=
  ["kotlin", "kotlin.collections", "kotlin.js", "kotlin.ranges", "kotlin.sequences"]

/-- The characters without one line end at their end. -/
def dropLineEnd (cs : List Char) : List Char :=
  match cs.reverse with
  | '\n' :: rest => rest.reverse
  | _ => cs

/-- The digits in a name of the form `FunctionN`; one line end may follow them. -/
def functionDigits? (name : String) : Option (List Char) :=
  ((Text.afterChars? "Function".toList name.toList).map dropLineEnd).filter fun digits =>
    !digits.isEmpty && digits.all Text.isDecimal

/-- The number of parameters that a name of the form `FunctionN` announces. -/
def functionArity? (name : String) : Option Nat :=
  (functionDigits? name).map Text.readDigits

/-- Whether a shape is a function type. -/
def isFunction (s : Shape) : Bool :=
  s.package == "kotlin" && functionArity? s.name == some (s.args.length - 1) && !s.args.isEmpty

/-- The number in the name of a type of the form `FunctionN`, when it has too many digits. -/
def overlong? (s : Shape) : Option Text.Overlong :=
  if s.package = "kotlin" then
    ((functionDigits? s.name).filter fun digits => Text.maxDigits < digits.length).map
      fun digits => ⟨digits.length⟩
  else none

/-- Whether a shape is a function type, unless the number in its name cannot be read. -/
def checkFunction (s : Shape) : Except Text.Overlong Bool :=
  match s.overlong? with
  | some o => .error o
  | none => .ok s.isFunction

/-- The type of functions with the given parameters and result. -/
def functionOf (params : List Shape) (result : Shape) (nullable : Bool := false) : Shape :=
  { name := "Function" ++ toString params.length, package := "kotlin", args := params ++ [result],
    nullable }

theorem args_ne_nil_of_isFunction
    {s : Shape}
    (h : s.isFunction = true) :
    s.args ≠ [] := by
  intro hnil
  simp [isFunction, hnil] at h

/-- The arguments of a function type are its parameters and then its result. -/
theorem exists_params_of_isFunction
    {s : Shape}
    (h : s.isFunction = true) :
    ∃ params result, s.args = params ++ [result] :=
  ⟨_, _, (List.dropLast_concat_getLast (args_ne_nil_of_isFunction h)).symm⟩

/-- Whether a type is a function type can be told exactly if the number in its name can be read. -/
theorem checkFunction_eq_ok_iff
    {s : Shape} {b : Bool} :
    s.checkFunction = .ok b ↔ s.overlong? = none ∧ s.isFunction = b := by
  rw [checkFunction]
  split
  · next h => simp [h]
  · next h => simp [h]

end Shape
end Facade
