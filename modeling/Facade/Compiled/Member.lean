import Facade.Compiled.TypeShape
import Facade.Declaration.Basic

/-!
# Members of compiled classes

**Input.**  A compiled class, and its methods.

**Algorithm.**  Static, generated and universal methods are left out and the others sorted by name,
number of parameters and text.  A getter stands for a property, which is mutable when a setter
for it exists; setters stand for nothing of their own, and every other method is a function.
-/

namespace Facade
namespace Compiled

/-- Methods that every object or data class has. -/
def universalMethods : List String :=
  ["equals", "hashCode", "toString", "copy", "getClass", "notify", "notifyAll", "wait"] ++
    (List.range 30).map fun i => "component" ++ toString (i + 1)

/-- The kinds of accessors. -/
inductive Accessor where
  | get
  | set
  | is
deriving DecidableEq, Repr

namespace Accessor

/-- The letters that the name of an accessor starts with. -/
def lead : Accessor → String
  | get => "get"
  | set => "set"
  | is => "is"

/-- Whether the rest of a name makes it an accessor: an uppercase letter, then anything on one
line. -/
def isRest : List Char → Bool
  | [] => false
  | c :: rest => c.isUpper && (Shape.dropLineEnd rest).all (· ≠ '\n')

/-- The accessor that a method is by its name, with the rest of the name. -/
def ofName? (name : String) : Option (Accessor × List Char) :=
  [get, set, is].findSome? fun a =>
    match Text.afterChars? a.lead.toList name.toList with
    | some rest => if isRest rest then some (a, rest) else none
    | none => none

end Accessor

/-- The property that a getter stands for: accessors that start with `is` lend their own name. -/
def propertyName (name : String) (accessor : Accessor) (rest : List Char) : String :=
  match accessor, rest with
  | .is, _ => name
  | _, c :: cs => String.ofList (c.toLower :: cs)
  | _, [] => name

namespace Method

/-- Methods that can be exported. -/
def isExportable (m : Method) : Bool :=
  !(m.isStatic || m.isSynthetic || m.isBridge || m.declaring == TypeRef.objectName)

/-- Methods are ordered by name, number of parameters and text. -/
def le (a b : Method) : Bool :=
  a.name < b.name ||
    (a.name == b.name &&
      (a.params.length < b.params.length ||
        (a.params.length == b.params.length && a.text ≤ b.text)))

/-- The property that a method is the getter of, with the name of its setter. -/
def getter? (m : Method) : Option (String × String) :=
  match Accessor.ofName? m.name with
  | some (accessor, rest) =>
      let fits := match accessor with
        | .get => m.returnClass ≠ "void"
        | .is => m.returnClass = "boolean"
        | .set => false
      if fits && m.params.isEmpty then
        some (propertyName m.name accessor rest, "set" ++ String.ofList rest)
      else none
  | none => none

/-- Whether a method is a setter by name and parameters. -/
def isSetter (m : Method) : Bool :=
  m.params.length = 1 &&
    match Accessor.ofName? m.name with
    | some (.set, _) => true
    | _ => false

/-- The methods that can be exported, in order. -/
def exportable (methods : List Method) : List Method :=
  (methods.filter isExportable).mergeSort le

end Method

namespace Class

/-- Whether a method is inherited or overrides a method of a supertype. -/
def overrides (c : Class) (m : Method) : Bool :=
  m.declaring ≠ c.name || c.ancestors.any fun a => (m.name, m.paramClasses) ∈ a.methods

end Class

/-- The parameters of a method or constructor. -/
def parameters (params : List Param) : Answer (List Parameter) :=
  params.mapM fun p => do .ok ⟨p.name, ← p.type.memberShape⟩

/-- The properties and functions of a class. -/
structure Members where
  properties : List Property := []
  functions : List Function := []

namespace Members

/-- The names of the methods that may be setters. -/
def setterNames (methods : List Method) : List String :=
  (methods.filter fun m => (Text.afterChars? "set".toList m.name.toList).isSome &&
    m.params.length = 1).map Method.name

/-- Adds what a method stands for. -/
def add (c : Class) (setters : List String) (ms : Members) (m : Method) : Answer Members :=
  if m.name ∈ universalMethods ∨ '$' ∈ m.name.toList then .ok ms
  else
    match m.getter? with
    | some (property, setter) => do
        let type ← m.returns.memberShape
        let p : Property := ⟨property, type, setter ∈ setters, c.overrides m⟩
        .ok { ms with properties := ms.properties ++ [p] }
    | none =>
        if m.isSetter then .ok ms
        else do
          let result ← m.returns.memberShape
          let params ← parameters m.params
          let f : Function := ⟨m.name, result, params, c.overrides m⟩
          .ok { ms with functions := ms.functions ++ [f] }

/-- The members that the methods of a class stand for. -/
def ofMethods (c : Class) (methods : List Method) : Answer Members :=
  (Method.exportable methods).foldlM (add c (setterNames (Method.exportable methods))) {}

/-- The members of a class. -/
def ofClass (c : Class) : Answer Members := do
  ofMethods c (← c.model.methods)

end Members

end Compiled
end Facade
