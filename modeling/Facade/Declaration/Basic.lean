import Facade.Shape.Builtin

/-!
# Declarations

What a session exports: classes, interfaces, sealed classes and enumerations, described by their
types and members alone.

A class or interface may have type parameters.  It is then a template: instantiating it replaces the
parameters by type arguments and gives the copy a name of its own.
-/

namespace Facade

/-- Where a declaration comes from. -/
structure Location where
  path : String
  line : Option Int := none
deriving DecidableEq, Repr, Inhabited

/-- The location as it is shown. -/
def Location.text (l : Location) : String :=
  match l.line with
  | none => l.path
  | some line => l.path ++ ":" ++ toString line

/-- A parameter of a function or a constructor. -/
structure Parameter where
  name : String
  type : Shape
deriving DecidableEq, Repr, Inhabited

/-- A property of a declaration. -/
structure Property where
  name : String
  type : Shape
  isMutable : Bool := false
  isOverride : Bool := false
deriving DecidableEq, Repr, Inhabited

/-- A function of a declaration. -/
structure Function where
  name : String
  result : Shape
  params : List Parameter := []
  isOverride : Bool := false
deriving DecidableEq, Repr, Inhabited

/-- A direct supertype.  For a class, `arguments` holds what is handed to its constructor, when that
is known before the program runs. -/
structure Supertype where
  type : Shape
  isClass : Bool := false
  arguments : Option (List Parameter) := none
deriving DecidableEq, Repr, Inhabited

/-- Whether a wrapper can call the constructor of the supertype. -/
def Supertype.isReconstructable (s : Supertype) : Bool :=
  !s.isClass || s.arguments.isSome

/-- What all declarations have. -/
structure Header where
  package : String := ""
  simpleName : String := ""
  origin : Option Location := none
deriving DecidableEq, Repr, Inhabited

/-- The type of the declaration, without type arguments. -/
def Header.shape (h : Header) : Shape :=
  { name := h.simpleName, package := h.package }

/-- What classes and interfaces have. -/
structure Template extends Header where
  typeParams : List String := []
  supers : List Supertype := []
  properties : List Property := []
  functions : List Function := []
  typeArgs : List Shape := []
  exportName : Option String := none
deriving DecidableEq, Repr, Inhabited

/-- The native type of a class or interface, with its type arguments. -/
def Template.native (t : Template) : Shape :=
  t.toHeader.shape.withArgs t.typeArgs

/-- The name of the wrapper; an empty name counts as none. -/
def Template.exportedName (t : Template) : String :=
  match t.exportName with
  | none => t.simpleName
  | some name => if name.isEmpty then t.simpleName else name

/-- A class. -/
structure ClassDecl extends Template where
  constructorParams : List Parameter := []
deriving DecidableEq, Repr, Inhabited

/-- An interface. -/
structure InterfaceDecl extends Template
deriving DecidableEq, Repr, Inhabited

/-- A direct subclass of a sealed class. -/
structure Subclass where
  package : String
  simpleName : String
deriving DecidableEq, Repr, Inhabited

/-- The native type of a subclass. -/
def Subclass.shape (s : Subclass) : Shape :=
  { name := s.simpleName, package := s.package }

/-- The root of a sealed hierarchy. -/
structure SealedDecl extends Header where
  constructorParams : List Parameter := []
  properties : List Property := []
  functions : List Function := []
  subclasses : List Subclass := []
deriving DecidableEq, Repr, Inhabited

/-- An enumeration with its entries in declaration order. -/
structure EnumDecl extends Header where
  entries : List String := []
deriving DecidableEq, Repr, Inhabited

/-- A declaration to export. -/
inductive Declaration where
  | cls (decl : ClassDecl)
  | interface (decl : InterfaceDecl)
  | sealed (decl : SealedDecl)
  | enumeration (decl : EnumDecl)
  /-- A description of a kind that no wrapper exists for. -/
  | other (kind : String) (header : Header)
deriving DecidableEq, Repr, Inhabited

namespace Declaration

/-- What the declaration has in common with all others. -/
def header : Declaration → Header
  | cls d => d.toHeader
  | interface d => d.toHeader
  | sealed d => d.toHeader
  | enumeration d => d.toHeader
  | other _ h => h

/-- Where the declaration comes from. -/
def origin (d : Declaration) : Option Location :=
  d.header.origin

/-- The open type parameters. -/
def typeParams : Declaration → List String
  | cls d => d.typeParams
  | interface d => d.typeParams
  | _ => []

/-- The direct supertypes. -/
def supers : Declaration → List Supertype
  | cls d => d.supers
  | interface d => d.supers
  | _ => []

/-- The subclasses of a sealed class. -/
def subclasses : Declaration → List Subclass
  | sealed d => d.subclasses
  | _ => []

/-- Whether the declaration is the root of a sealed hierarchy. -/
def isSealed : Declaration → Bool
  | sealed _ => true
  | _ => false

end Declaration

end Facade
