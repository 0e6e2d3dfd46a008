import Facade.Dictionary

/-!
# Compiled classes

What the virtual machine tells about a compiled class: its names and kind, its supertypes, fields,
methods, constructors and annotations.  Whatever the machine works out by itself is told as well:
the class that remains of a type without its arguments and variables, the text of a method, which
methods are found in a supertype, and which subclasses of a sealed class are there.  Any question
may be answered by an exception, for instance when a class that a signature mentions is not there.
-/

namespace Facade
namespace Compiled

/-- Why an answer about a class cannot be read. -/
inductive ReadError where
  /-- There is no type of arrays of `void`. -/
  | voidArray
  /-- The machine raises an exception with this text. -/
  | raised (text : String)
deriving DecidableEq, Repr, Inhabited

/-- What is said about an answer that cannot be read. -/
def ReadError.message : ReadError → String
  | .voidArray => "'void'"
  | .raised text => text

/-- What the machine answers to a question about a class. -/
abbrev Answer (α : Type) := Except ReadError α

/-- A type in the signature of a compiled class. -/
inductive TypeRef where
  /-- A class or primitive type. -/
  | named (name : String)
  /-- A generic class with its arguments. -/
  | parameterized (className : String) (args : List TypeRef)
  /-- A type variable. -/
  | typeVar (name : String)
  /-- A wildcard with its lower and upper bounds. -/
  | wildcard (lower upper : List TypeRef)
  /-- An array whose elements have a generic type. -/
  | genericArray (component : TypeRef)
  /-- An array class. -/
  | array (component : TypeRef)
  /-- A type that the machine does not tell. -/
  | untold (cause : ReadError)
deriving Inhabited

namespace TypeRef

/-- The class of all objects. -/
def objectName : String := "java.lang.Object"

/-- The names of the primitive types. -/
def primitiveNames : List String :=
  ["boolean", "byte", "char", "short", "int", "long", "float", "double", "void"]

end TypeRef

/-- A field, with the name of the class of its values. -/
structure Field where
  name : String
  isStatic : Bool := false
  className : String := TypeRef.objectName
  isEnumConstant : Bool := false
deriving Inhabited

/-- A parameter of a method or constructor, with the name of the class of its values. -/
structure Param where
  name : String
  className : String
  type : TypeRef
deriving Inhabited

/-- A method. -/
structure Method where
  name : String
  /-- The class that declares the method. -/
  declaring : String
  /-- The text that the machine prints for the method, which tells overloaded methods apart. -/
  text : String
  /-- The class of the results. -/
  returnClass : String := "void"
  returns : TypeRef := .named "void"
  params : List Param := []
  isStatic : Bool := false
  isBridge : Bool := false
  isSynthetic : Bool := false
deriving Inhabited

/-- The classes of the values of the parameters. -/
def Method.paramClasses (m : Method) : List String :=
  m.params.map Param.className

/-- A constructor. -/
structure Constructor where
  params : List Param := []
  isSynthetic : Bool := false
deriving Inhabited

/-- An instantiation asked for by an annotation. -/
structure InstanceEntry where
  name : String
  className : String
  args : List TypeRef
deriving Inhabited

/-- An annotation, with the instantiations that it asks for. -/
structure Annotation where
  type : String
  instances : Answer (List InstanceEntry) := .ok []

/-- The kinds of compiled classes. -/
inductive ClassKind where
  | cls
  | enumeration
  | interface
  | annotationClass
deriving DecidableEq, Repr, Inhabited

/-- A class that another class extends or implements. -/
structure Ancestor where
  name : String
  /-- The methods that are found in the class, inherited ones among them, by name and by the classes
  of the parameters. -/
  methods : List (String × List String) := []
deriving Inhabited

/-- A supertype as it is declared, with the name of its class. -/
structure DeclaredSuper where
  className : String
  type : TypeRef
deriving Inhabited

/-- The names of a class: the binary name, the package and the simple name. -/
structure ClassNames where
  name : String
  package : String
  simpleName : String
deriving DecidableEq, Repr, Inhabited

/-- What is told about a class. -/
structure ClassModel where
  kind : ClassKind := .cls
  package : String
  simpleName : Answer String
  /-- What goes wrong when the class is loaded. -/
  loadError : Option String := none
  isSealed : Bool := false
  /-- The permitted subclasses that are there. -/
  permitted : Answer (List ClassNames) := .ok []
  isThrowable : Bool := false
  typeParams : Answer (List String) := .ok []
  superclass : Option Ancestor := none
  interfaces : List Ancestor := []
  declaredSuperclass : Answer (Option DeclaredSuper) := .ok none
  declaredInterfaces : Answer (List DeclaredSuper) := .ok []
  fields : Answer (List Field) := .ok []
  methods : Answer (List Method) := .ok []
  constructors : Answer (List Constructor) := .ok []
  annotations : Answer (List Annotation) := .ok []

/-- The classes that the virtual machine can tell about, by name. -/
abbrev Classes := Dictionary String ClassModel

/-- A class with its name. -/
structure Class where
  name : String
  model : ClassModel

namespace Class

/-- The names of a class. -/
def names (c : Class) : Answer ClassNames := do
  let simpleName ← c.model.simpleName
  .ok ⟨c.name, c.model.package, simpleName⟩

/-- The direct superclass, unless it is the class of all objects, and the direct interfaces. -/
def ancestors (c : Class) : List Ancestor :=
  c.model.superclass.toList.filter (fun a => a.name ≠ TypeRef.objectName) ++ c.model.interfaces

end Class

end Compiled
end Facade
