import Facade.Compiled.Member
import Facade.Refusal
import Facade.Discovery.Spec

/-!
# Declarations of compiled classes

**Input.**  A compiled class.

**Algorithm.**  Annotation classes and objects are refused.  Enumerations are described by their
constants, all other classes by their supertypes, their members and the constructor with the most
parameters.  The first question that is answered by an exception ends the description.
-/

namespace Facade
namespace Compiled

/-- Why a class cannot be loaded or described. -/
inductive ClassError where
  /-- There is no such class. -/
  | notFound (name : String)
  /-- Loading the class fails. -/
  | loadFailed (text : String)
  /-- An answer about the class cannot be read. -/
  | unreadable (cause : ReadError)
  /-- The class is refused. -/
  | refused (refusal : Refusal)
deriving DecidableEq, Repr

/-- What is said about a class that cannot be loaded or described. -/
def ClassError.message : ClassError → String
  | .notFound name => "Class " ++ name ++ " is not found"
  | .loadFailed text => text
  | .unreadable e => e.message
  | .refused r => r.cause.message

/-- Loads a class. -/
def Classes.load (classes : Classes) (name : String) : Except ClassError Class :=
  match classes.get? name with
  | none => .error (.notFound name)
  | some model =>
      match model.loadError with
      | some text => .error (.loadFailed text)
      | none => .ok ⟨name, model⟩

namespace Class

/-- Whether a class is the class of an object: it holds its only instance. -/
def isObject (c : Class) : Answer Bool := do
  let fields ← c.model.fields
  .ok (fields.any fun f => f.name == "INSTANCE" && f.isStatic && f.className == c.name)

/-- Superclasses that are no supertypes of a declaration. -/
def impliedSuperclasses : List String :=
  [TypeRef.objectName, "java.lang.Enum", "java.lang.Record"]

/-- The superclass as a supertype; what is handed to its constructor is not known. -/
def classSupers (c : Class) : Answer (List Supertype) := do
  match ← c.model.declaredSuperclass with
  | none => .ok []
  | some s =>
      if s.className ∈ impliedSuperclasses then .ok []
      else do .ok [{ type := ← s.type.shape, isClass := true }]

/-- Interfaces that do not only mark compiled classes. -/
def isShown (s : DeclaredSuper) : Bool :=
  (Text.afterChars? "kotlin.jvm.internal.".toList s.className.toList).isNone

/-- The interfaces as supertypes. -/
def interfaceSupers (c : Class) : Answer (List Supertype) := do
  let interfaces ← c.model.declaredInterfaces
  (interfaces.filter isShown).mapM fun s => do .ok { type := ← s.type.shape }

/-- The direct supertypes. -/
def supers (c : Class) : Answer (List Supertype) := do
  let superclass ← c.classSupers
  let interfaces ← c.interfaceSupers
  .ok (superclass ++ interfaces)

end Class

namespace Constructor

/-- Whether a constructor was generated by the compiler. -/
def isGenerated (c : Constructor) : Bool :=
  c.isSynthetic ||
    c.params.getLast?.map Param.className ==
      some "kotlin.jvm.internal.DefaultConstructorMarker"

/-- The first of the constructors with the most parameters. -/
def widest? : List Constructor → Option Constructor
  | [] => none
  | c :: rest =>
      match widest? rest with
      | some d => if c.params.length < d.params.length then some d else some c
      | none => some c

end Constructor

/-- The instantiation that an annotation asks for. -/
def InstanceEntry.spec (e : InstanceEntry) : Answer InstanceSpec := do
  .ok ⟨e.name, e.className, ← TypeRef.shapes e.args⟩

/-- The instantiations that an annotation asks for. -/
def Annotation.specs (a : Annotation) : Answer (List InstanceSpec) := do
  (← a.instances).mapM InstanceEntry.spec

namespace Class

/-- The parameters of the primary constructor. -/
def constructorParams (c : Class) : Answer (List Parameter) := do
  let constructors ← c.model.constructors
  match Constructor.widest? (constructors.filter fun k => !k.isGenerated) with
  | none => .ok []
  | some k => parameters k.params

/-- The permitted subclasses of a sealed class. -/
def subclasses (c : Class) : Answer (List Subclass) := do
  let permitted ← c.model.permitted
  .ok (permitted.map fun sub => ⟨sub.package, sub.simpleName⟩)

/-- The declaration of a class that is neither an enumeration nor refused. -/
def describeMembers (c : Class) (header : Header) : Answer Declaration := do
  let typeParams ← c.model.typeParams
  let members ← Members.ofClass c
  let template : Template :=
    { header with
      typeParams := typeParams, properties := members.properties, functions := members.functions }
  if c.model.kind = .interface then
    .ok (.interface { template with supers := ← c.supers })
  else if c.model.isSealed then
    .ok (.sealed
      { header with
        constructorParams := ← c.constructorParams
        properties := members.properties
        functions := members.functions
        subclasses := ← c.subclasses })
  else
    .ok (.cls { template with supers := ← c.supers, constructorParams := ← c.constructorParams })

/-- The declaration of an enumeration. -/
def describeEntries (c : Class) (header : Header) : Answer Declaration := do
  let fields ← c.model.fields
  .ok (.enumeration
    { header with entries := (fields.filter Field.isEnumConstant).map Field.name })

/-- The declaration of a class. -/
def describe (c : Class) (origin : Option Location) : Except ClassError Declaration := do
  let names ← c.names.mapError .unreadable
  let header : Header := ⟨names.package, names.simpleName, origin⟩
  if c.model.kind = .annotationClass then
    .error (.refused { cause := .annotationClass c.name, location := origin })
  else if ← c.isObject.mapError .unreadable then
    .error (.refused { cause := .objectDeclaration c.name, location := origin })
  else if c.model.kind = .enumeration then (c.describeEntries header).mapError .unreadable
  else (c.describeMembers header).mapError .unreadable

/-- The instantiations that the annotations of a class ask for. -/
def instanceSpecs (c : Class) (marker : Option String) : Answer (List InstanceSpec) := do
  let annotations ← c.model.annotations
  let specs ← (annotations.filter fun a => marker = some a.type).mapM Annotation.specs
  .ok specs.flatten

/-- Whether a class carries an annotation. -/
def isMarked (c : Class) (marker : Option String) : Answer Bool := do
  let annotations ← c.model.annotations
  .ok (annotations.any fun a => marker = some a.type)

end Class

end Compiled
end Facade
