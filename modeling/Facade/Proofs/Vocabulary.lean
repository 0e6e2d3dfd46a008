import Facade.Proofs.LinkedCode

/-!
# Vocabularies of files

A file refers to types and runs code.  It stays within a vocabulary when every type that it refers
to, every method that it calls without arguments and every branch of a choice belongs to the
vocabulary.

**Results.**
* `File.Within.uses`: a file whose parts stay within a vocabulary uses nothing else.
-/

namespace Facade

namespace Code

/-- The expressions of a statement. -/
def Stmt.terms : Stmt → List Expr
  | .text source => [.text source]
  | .eval value => [value]
  | .assign target value => [target, value]
  | .bind _ value => [value]
  | .ret value => [value]
  | .retIfNamed _ entry => [entry]

end Code

namespace Source

open Code

def PropertyDef.code (p : PropertyDef) : List Expr :=
  p.initializer.toList ++ p.getter.toList ++ (p.setter.getD []).flatMap Stmt.terms

def FunctionDef.code (f : FunctionDef) : List Expr :=
  f.expression.toList ++ (f.body.getD []).flatMap Stmt.terms

def ConstructorDef.code (c : ConstructorDef) : List Expr :=
  c.delegate.toList

def TypeDef.code (t : TypeDef) : List Expr :=
  t.primary.toList.flatMap ConstructorDef.code ++ t.properties.flatMap PropertyDef.code ++
    t.constructors.flatMap ConstructorDef.code ++ t.functions.flatMap FunctionDef.code

def MemberDef.code : MemberDef → List Expr
  | .type t => t.code
  | .function f => f.code
  | .property p => p.code

/-- The expressions of a file. -/
def File.code (F : File) : List Expr :=
  F.members.flatMap MemberDef.code

/-- The types, methods and branches that a file may use. -/
structure Vocabulary where
  type : Shape → Prop
  method : Expr → String → Prop
  branch : Shape × String → Prop

namespace Vocabulary

def Knows (V : Vocabulary) (s : Shape) : Prop :=
  ∀ u ∈ s.parts, V.type u

def Links (V : Vocabulary) (e : Expr) : Prop :=
  e.Linked V.method V.branch

end Vocabulary

variable {V : Vocabulary}

structure ConstructorDef.Within (V : Vocabulary) (c : ConstructorDef) : Prop where
  params : ∀ p ∈ c.params, V.Knows p.type
  code : ∀ e ∈ c.code, V.Links e

structure PropertyDef.Within (V : Vocabulary) (p : PropertyDef) : Prop where
  type : V.Knows p.type
  annotations : ∀ s ∈ p.annotations, V.Knows s
  code : ∀ e ∈ p.code, V.Links e

structure FunctionDef.Within (V : Vocabulary) (f : FunctionDef) : Prop where
  receiver : ∀ s ∈ f.receiver, V.Knows s
  params : ∀ p ∈ f.params, V.Knows p.type
  result : ∀ s ∈ f.result, V.Knows s
  annotations : ∀ s ∈ f.annotations, V.Knows s
  code : ∀ e ∈ f.code, V.Links e

structure TypeDef.Within (V : Vocabulary) (t : TypeDef) : Prop where
  annotations : ∀ s ∈ t.annotations, V.Knows s
  primary : ∀ c ∈ t.primary, c.Within V
  superclass : ∀ s ∈ t.superclass, V.Knows s
  interfaces : ∀ s ∈ t.interfaces, V.Knows s
  properties : ∀ p ∈ t.properties, p.Within V
  constructors : ∀ c ∈ t.constructors, c.Within V
  functions : ∀ f ∈ t.functions, f.Within V

def MemberDef.Within (V : Vocabulary) : MemberDef → Prop
  | .type t => t.Within V
  | .function f => f.Within V
  | .property p => p.Within V

/-- Everything that a file uses is in the vocabulary. -/
def File.Within (V : Vocabulary) (F : File) : Prop :=
  ∀ m ∈ F.members, m.Within V

theorem mem_partsAll {shapes : List Shape} {u : Shape} :
    u ∈ Shape.partsAll shapes ↔ ∃ s ∈ shapes, u ∈ s.parts := by
  rw [Shape.partsAll_eq_flatMap, List.mem_flatMap]

theorem PropertyDef.Within.references {p : PropertyDef}
    (h : p.Within V) :
    ∀ u ∈ p.references, V.type u := by
  intro u hu
  simp only [PropertyDef.references, List.mem_append, mem_partsAll] at hu
  rcases hu with hu | ⟨s, hs, hu⟩
  · exact h.type u hu
  · exact h.annotations s hs u hu

/-- A function within a vocabulary refers to types of the vocabulary only. -/
theorem FunctionDef.Within.references {f : FunctionDef}
    (h : f.Within V) :
    ∀ u ∈ f.references, V.type u := by
  intro u hu
  simp only [FunctionDef.references, optionalParts, parameterParts, List.mem_append, mem_partsAll,
    List.mem_map, Option.mem_toList] at hu
  rcases hu with ((⟨s, hs, hu⟩ | ⟨_, ⟨p, hp, rfl⟩, hu⟩) | ⟨s, hs, hu⟩) | ⟨s, hs, hu⟩
  · exact h.receiver s hs u hu
  · exact h.params p hp u hu
  · exact h.result s hs u hu
  · exact h.annotations s hs u hu

/-- A type within a vocabulary refers to types of the vocabulary only. -/
theorem TypeDef.Within.references {t : TypeDef}
    (h : t.Within V) :
    ∀ u ∈ t.references, V.type u := by
  intro u hu
  simp only [TypeDef.references, optionalParts, parameterParts, List.mem_append, mem_partsAll,
    List.mem_map, List.mem_flatMap, Option.mem_toList] at hu
  rcases hu with
    (((((⟨s, hs, hu⟩ | ⟨_, ⟨p, ⟨c, hc, hp⟩, rfl⟩, hu⟩) | ⟨s, hs, hu⟩) | ⟨s, hs, hu⟩) |
      ⟨p, hp, hu⟩) | ⟨c, hc, _, ⟨p, hp, rfl⟩, hu⟩) | ⟨f, hf, hu⟩
  · exact h.annotations s hs u hu
  · exact (h.primary c hc).params p hp u hu
  · exact h.superclass s hs u hu
  · exact h.interfaces s hs u hu
  · exact (h.properties p hp).references u hu
  · exact (h.constructors c hc).params p hp u hu
  · exact (h.functions f hf).references u hu

theorem TypeDef.Within.code {t : TypeDef}
    (h : t.Within V) :
    ∀ e ∈ t.code, V.Links e := by
  intro e he
  simp only [TypeDef.code, List.mem_append, List.mem_flatMap, Option.mem_toList] at he
  rcases he with ((⟨c, hc, he⟩ | ⟨p, hp, he⟩) | ⟨c, hc, he⟩) | ⟨f, hf, he⟩
  · exact (h.primary c hc).code e he
  · exact (h.properties p hp).code e he
  · exact (h.constructors c hc).code e he
  · exact (h.functions f hf).code e he

/-- Every type that a file refers to and all its code are in the vocabulary. -/
structure File.Uses (V : Vocabulary) (F : File) : Prop where
  references : ∀ u ∈ F.references, V.type u
  code : ∀ e ∈ F.code, e.Linked V.method V.branch

/-- A file within a vocabulary uses nothing else. -/
theorem File.Within.uses {F : File}
    (h : F.Within V) :
    F.Uses V := by
  constructor
  · intro u hu
    obtain ⟨m, hm, hu⟩ := List.mem_flatMap.1 hu
    have hwithin := h m hm
    cases m with
    | type t => exact TypeDef.Within.references hwithin u hu
    | function f => exact FunctionDef.Within.references hwithin u hu
    | property p => exact PropertyDef.Within.references hwithin u hu
  · intro e he
    obtain ⟨m, hm, he⟩ := List.mem_flatMap.1 he
    have hwithin := h m hm
    cases m with
    | type t => exact TypeDef.Within.code hwithin e he
    | function f => exact FunctionDef.Within.code hwithin e he
    | property p => exact PropertyDef.Within.code hwithin e he

end Source

end Facade
