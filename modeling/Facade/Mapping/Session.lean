import Facade.Mapping.Table
import Facade.Name

/-!
# The rules of a session

**Input.**  The declarations that a session exports, each with the name of its wrapper, and the
exceptions found besides the built-in ones.

**Algorithm.**  The built-in rules come first, in a fixed order, then one rule per exported
declaration.  A declaration without type arguments gets a rule for its key; an instantiation of a
generic declaration gets a rule that also compares the type arguments.

**Results.**
* `Table.ofSession` gives the frozen table, or the first rule that is refused.
-/

namespace Facade
namespace Mapping

/-- The types that are shown as they are. -/
def identityTypes : List Shape :=
  [.boolean, .byte, .char, .short, .int, .float, .double, .string, .booleanArray, .byteArray,
    .shortArray, .intArray, .floatArray, .doubleArray, .charArray, .any, .unit]

/-- The rule for an exception. -/
def Rule.exception (s : Shape) : Rule :=
  .exact s (.exception s.key)

/-- The built-in rules, with further exceptions after the built-in ones. -/
def builtinRules (extraExceptions : List Shape) : List Rule :=
  identityTypes.map (Rule.exact · .identity) ++
    [.exact .long .long, .exact .longArray .longArray, .exact .array .array, .exact .list .list] ++
    (Shape.exceptions ++ extraExceptions).eraseDups.map Rule.exception ++
    [.patterned .function "kotlin.FunctionN" .function]

/-- The wrapper of a declaration. -/
def wrapperKey (native : Shape) (exportName : String) (erase : Bool) : Key :=
  ⟨Name.facadePackage native.package erase, exportName⟩

/-- The rule for a declaration of the session. -/
def Rule.exported (native : Shape) (exportName : String) (erase : Bool) : Rule :=
  let conversion := .wrapper (wrapperKey native exportName erase)
  if native.args.isEmpty then .exact native conversion
  else .patterned (.instantiation native.key native.args) native.text conversion

/-- The rules of a session. -/
def sessionRules
    (exported : List (Shape × String)) (extraExceptions : List Shape) (erase : Bool) : List Rule :=
  builtinRules extraExceptions ++ exported.map fun (native, name) => .exported native name erase

/-- The frozen table of a session. -/
def Table.ofSession
    (exported : List (Shape × String)) (extraExceptions : List Shape) (erase : Bool) :
    Except RegistrationError Table :=
  match Registry.empty.addAll (sessionRules exported extraExceptions erase) with
  | (g, .ok ()) => .ok g.freeze.table
  | (_, .error e) => .error e

end Mapping
end Facade
