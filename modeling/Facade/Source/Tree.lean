import Facade.Code.Expr
import Facade.Dictionary
import Facade.Shape.Parts

/-!
# Source files

A generated file as a tree: types, functions and properties with their modifiers, annotations and
code.  A file may import types under another name.

**Results.**
* `File.references` lists every shape that a file refers to, type arguments included, in the order
  in which the file mentions them.
-/

namespace Facade

namespace Source

open Code

/-- A parameter; in a primary constructor its modifiers may make it a property. -/
structure ParameterDef where
  name : String
  type : Shape
  modifiers : List String := []

/-- A property with an initial value or accessors; the setter refers to the new value as `value`. -/
structure PropertyDef where
  name : String
  type : Shape
  modifiers : List String := []
  isMutable : Bool := false
  initializer : Option Expr := none
  getter : Option Expr := none
  setter : Option (List Stmt) := none
  annotations : List Shape := []

/-- A function; it is abstract when it has neither statements nor an expression as its body. -/
structure FunctionDef where
  name : String
  params : List ParameterDef := []
  result : Option Shape := none
  modifiers : List String := []
  receiver : Option Shape := none
  body : Option (List Stmt) := none
  expression : Option Expr := none
  annotations : List Shape := []

/-- Whether a function has no body. -/
def FunctionDef.isAbstract (f : FunctionDef) : Bool :=
  f.body.isNone && f.expression.isNone

/-- A constructor, which may delegate to another one. -/
structure ConstructorDef where
  params : List ParameterDef := []
  modifiers : List String := []
  delegate : Option Expr := none

/-- The kinds of types; further kinds go by their keyword. -/
inductive TypeKind where
  | cls
  | interface
  | object
  | other (keyword : String)
deriving DecidableEq, Repr

/-- The keyword of a kind. -/
def TypeKind.keyword : TypeKind → String
  | .cls => "class"
  | .interface => "interface"
  | .object => "object"
  | .other keyword => keyword

/-- A class, interface or object. -/
structure TypeDef where
  kind : TypeKind
  name : String
  modifiers : List String := []
  annotations : List Shape := []
  primary : Option ConstructorDef := none
  superclass : Option Shape := none
  interfaces : List Shape := []
  properties : List PropertyDef := []
  constructors : List ConstructorDef := []
  functions : List FunctionDef := []
  doc : List String := []

namespace TypeDef

/-- The property of a name. -/
def property? (t : TypeDef) (name : String) : Option PropertyDef :=
  t.properties.find? fun p => p.name == name

/-- The function of a name. -/
def function? (t : TypeDef) (name : String) : Option FunctionDef :=
  t.functions.find? fun f => f.name == name

end TypeDef

/-- What a file declares at its top level. -/
inductive MemberDef where
  | type (decl : TypeDef)
  | function (decl : FunctionDef)
  | property (decl : PropertyDef)

/-- A file; `aliases` gives the dotted names that are imported under another name. -/
structure File where
  package : String := ""
  name : String
  aliases : Dictionary String String := []
  members : List MemberDef := []

namespace File

/-- The types that a file declares. -/
def types (f : File) : List TypeDef :=
  f.members.filterMap fun
    | .type t => some t
    | _ => none

/-- The functions that a file declares. -/
def functions (f : File) : List FunctionDef :=
  f.members.filterMap fun
    | .function g => some g
    | _ => none

/-- The type of a name. -/
def type? (f : File) (name : String) : Option TypeDef :=
  f.types.find? fun t => t.name == name

/-- The function of a name. -/
def function? (f : File) (name : String) : Option FunctionDef :=
  f.functions.find? fun g => g.name == name

end File

/-- The shapes of an optional reference. -/
def optionalParts (s : Option Shape) : List Shape :=
  Shape.partsAll s.toList

/-- The shapes that parameters refer to. -/
def parameterParts (params : List ParameterDef) : List Shape :=
  Shape.partsAll (params.map ParameterDef.type)

/-- The shapes that a property refers to. -/
def PropertyDef.references (p : PropertyDef) : List Shape :=
  p.type.parts ++ Shape.partsAll p.annotations

/-- The shapes that a function refers to. -/
def FunctionDef.references (f : FunctionDef) : List Shape :=
  optionalParts f.receiver ++ parameterParts f.params ++ optionalParts f.result ++
    Shape.partsAll f.annotations

/-- The shapes that a type refers to. -/
def TypeDef.references (t : TypeDef) : List Shape :=
  Shape.partsAll t.annotations ++
    parameterParts (t.primary.toList.flatMap ConstructorDef.params) ++
    optionalParts t.superclass ++
    Shape.partsAll t.interfaces ++
    t.properties.flatMap PropertyDef.references ++
    t.constructors.flatMap (fun c => parameterParts c.params) ++
    t.functions.flatMap FunctionDef.references

/-- The shapes that a member of a file refers to. -/
def MemberDef.references : MemberDef → List Shape
  | .type t => t.references
  | .function f => f.references
  | .property p => p.references

/-- The shapes that a file refers to. -/
def File.references (f : File) : List Shape :=
  f.members.flatMap MemberDef.references

end Source

end Facade
