import Facade.Proofs.Conditions

/-!
# Refused classes

A class is refused by the first condition that it does not meet: open type parameters, supertypes
from left to right, parameters of the constructor, properties, functions.

**Input.**  A class and the context of its session.

**Results.**
* `forall_classConditions_iff`: the conditions of a class, without their order.
* `class_refused_by_first_condition`: when a class is refused, and with which diagnostic.
-/

namespace Facade
namespace Wrapper

open Mapping Outcome

section Refused

variable {ctx : Context}

/-- A class that can be wrapped. -/
structure Wrappable (ctx : Context) (c : ClassDecl) : Prop where
  closed : c.typeParams = []
  supers : ∀ s ∈ c.supers, ∃ s', ctx.table.exported s.type = .ok s'
  bases : ∀ s ∈ c.supers, s.isClass = true → s.type.key ∈ ctx.sealedBases
  /-- Parameters are not looked at if a superclass gets arguments that are not known. -/
  construction : (∃ s ∈ c.supers, s.isClass = true ∧ s.arguments = none) ∨
    ∀ p ∈ c.constructorParams, ∃ s', ctx.table.exported p.type = .ok s'
  properties : ∀ p ∈ c.properties, ∃ s', ctx.table.exported p.type = .ok s'
  params : ∀ f ∈ c.functions, ∀ p ∈ f.params, ∃ s', ctx.table.exported p.type = .ok s'
  results : ∀ f ∈ c.functions,
    f.result.key = Shape.unit.key ∨ ∃ s', ctx.table.exported f.result = .ok s'

/-- The conditions on members hold exactly if the types of all members are shown. -/
theorem forall_memberConditions_iff {properties : List Property} {functions : List Function} :
    (∀ k ∈ memberConditions properties functions, k.Holds ctx) ↔
      (∀ p ∈ properties, ∃ s', ctx.table.exported p.type = .ok s') ∧
        ∀ f ∈ functions, (∀ p ∈ f.params, ∃ s', ctx.table.exported p.type = .ok s') ∧
          (f.result.key = Shape.unit.key ∨ ∃ s', ctx.table.exported f.result = .ok s') := by
  have hfunction : ∀ f : Function, (∀ k ∈ functionConditions f, k.Holds ctx) ↔
      (∀ p ∈ f.params, ∃ s', ctx.table.exported p.type = .ok s') ∧
        (f.result.key = Shape.unit.key ∨ ∃ s', ctx.table.exported f.result = .ok s') := by
    intro f
    rw [functionConditions, List.forall_mem_append, List.forall_mem_map]
    refine and_congr Iff.rfl ?_
    by_cases hunit : f.result.key = Shape.unit.key
    · simp [isUnit, hunit]
    · simp [isUnit, hunit, Condition.Holds]
  rw [memberConditions, List.forall_mem_append, List.forall_mem_map, List.forall_mem_flatMap]
  exact and_congr Iff.rfl (forall₂_congr fun f _ => hfunction f)

/-- A supertype has to be shown, and a superclass has to be a sealed base of the session. -/
theorem forall_supertypeConditions_iff {d : Template} {s : Supertype} :
    (∀ k ∈ supertypeConditions d s, k.Holds ctx) ↔
      (∃ s', ctx.table.exported s.type = .ok s') ∧
        (s.isClass = true → s.type.key ∈ ctx.sealedBases) := by
  rw [supertypeConditions, List.forall_mem_cons]
  refine and_congr Iff.rfl ?_
  cases s.isClass with
  | false => simp
  | true => simp [Condition.Holds]

/-- A class cannot be built from outside if the arguments of a superclass are not known. -/
theorem isConstructible_eq_false_iff {c : ClassDecl} :
    isConstructible c = false ↔ ∃ s ∈ c.supers, s.isClass = true ∧ s.arguments = none := by
  simp [isConstructible, Supertype.isReconstructable]

theorem forall_constructorConditions_iff {c : ClassDecl} :
    (∀ k ∈ constructorConditions c, k.Holds ctx) ↔
      (∃ s ∈ c.supers, s.isClass = true ∧ s.arguments = none) ∨
        ∀ p ∈ c.constructorParams, ∃ s', ctx.table.exported p.type = .ok s' := by
  rw [constructorConditions, ← isConstructible_eq_false_iff]
  cases isConstructible c with
  | false => simp
  | true => simp [Condition.Holds]

/-- The conditions on a class hold exactly if it can be wrapped. -/
theorem forall_classConditions_iff {c : ClassDecl} :
    (∀ k ∈ classConditions c, k.Holds ctx) ↔ Wrappable ctx c := by
  rw [classConditions, List.forall_mem_append, List.forall_mem_append, List.forall_mem_cons,
    List.forall_mem_flatMap, forall_constructorConditions_iff, forall_memberConditions_iff]
  simp only [forall_supertypeConditions_iff]
  constructor
  · rintro ⟨⟨hclosed, hsupers⟩, hconstruction, hproperties, hfunctions⟩
    exact
      { closed := hclosed
        supers := fun s hs => (hsupers s hs).1
        bases := fun s hs => (hsupers s hs).2
        construction := hconstruction
        properties := hproperties
        params := fun f hf => (hfunctions f hf).1
        results := fun f hf => (hfunctions f hf).2 }
  · intro h
    exact ⟨⟨h.closed, fun s hs => ⟨h.supers s hs, h.bases s hs⟩⟩, h.construction, h.properties,
      fun f hf => ⟨h.params f hf, h.results f hf⟩⟩

/-- When a class is wrapped, and what is said if it is not. -/
structure RefusedInOrder (ctx : Context) (c : ClassDecl) : Prop where
  /-- A class is wrapped exactly if it meets all conditions and its code can be written. -/
  wrapped : (∃ F, ofClass ctx c = .ok F) ↔
    Wrappable ctx c ∧ ∀ u ∈ writes ctx (.cls c), Readable u
  /-- If its code can be written, the first condition that it does not meet decides. -/
  refused : (∀ u ∈ writes ctx (.cls c), Readable u) →
    ∀ F, ofClass ctx c = .error F ↔ FirstViolated ctx (classConditions c) F
  /-- Otherwise a number that cannot be read may come before it. -/
  fails : ∀ F, ofClass ctx c = .error F → FirstViolated ctx (classConditions c) F ∨
    ∃ o, Unwritable (writes ctx (.cls c)) o ∧ F = .overlong o
  /-- The code can be written if the numbers of all types of the class can be read. -/
  writable : (∀ s ∈ (Declaration.cls c).mentions, Readable s) →
    ∀ u ∈ writes ctx (.cls c), Readable u
  /-- A type that cannot be shown is reported with the origin of the class and the name of the
  member. -/
  diagnosed : ∀ refusal s reason, ofClass ctx c = .error (.refused refusal) →
    refusal.cause = .unmappable s reason →
      ∃ before member type after, classConditions c = before ++ .shown member type :: after ∧
        (∀ b ∈ before, b.Holds ctx) ∧ ctx.table.exported type = .error (.unmappable s) ∧
          ∀ sources, ((Request.declaration (.cls c) sources).fulfil ctx).diagnostics =
            [⟨.error, unmappableMessage s unmappableReason, c.origin, some member⟩]

theorem fault_of_cause {refusal : Refusal} {member : String} {fault : Fault} {s : Shape}
    {reason : String}
    (h : .refused refusal = (Failure.ofFault fault).placed none (some member))
    (hcause : refusal.cause = .unmappable s reason) :
    fault = .unmappable s := by
  cases fault with
  | unmappable u =>
      obtain rfl := Failure.refused.inj h
      obtain ⟨rfl, -⟩ := Refusal.Cause.unmappable.inj hcause
      rfl
  | noArguments key => simp [Failure.ofFault, Failure.placed] at h
  | overlong o => simp [Failure.ofFault, Failure.placed] at h

/-- A class is wrapped exactly if all its conditions hold, and is otherwise refused by the first one
that does not, but for numbers that cannot be read. -/
theorem class_refused_by_first_condition
    {exported : List (Shape × String)} {extra : List Shape} {erase : Bool}
    (hT : Table.ofSession exported extra erase = .ok ctx.table) (c : ClassDecl) :
    RefusedInOrder ctx c where
  wrapped := by
    rw [← forall_classConditions_iff, ← forM_check_eq_ok_iff]
    exact (agrees_ofClass ctx c).exists_ok_iff
  refused hwrites _ := ofDeclaration_eq_error_iff ctx hwrites
  fails F hF := by
    rcases (agrees_ofClass ctx c).error F hF with hF | ho
    · exact .inl (forM_check_eq_error_iff.1 hF)
    · exact .inr ho
  writable := readable_of_mem_classWrites hT
  diagnosed refusal s reason hF hcause := by
    rcases (agrees_ofClass ctx c).error _ hF with hfirst | ⟨o, -, heq⟩
    · obtain ⟨before, k, after, hlist, hbefore, hk⟩ := forM_check_eq_error_iff.1 hfirst
      rcases hk.member_or_plain with ⟨member, type, fault, rfl, hfault, heq⟩ | ⟨r, heq, -, hkind⟩
      · obtain rfl : fault = .unmappable s := fault_of_cause heq hcause
        refine ⟨before, member, type, after, hlist, hbefore, hfault, fun sources => ?_⟩
        have hbuild : (Request.declaration (.cls c) sources).build ctx = _ := hF.trans (by rw [heq])
        rw [diagnostics_of_build hbuild, diagnose_placed]
        rfl
      · obtain rfl := Failure.refused.inj heq
        simp [hcause, Refusal.Cause.kind] at hkind
    · simp at heq

/-- A class with two members whose types cannot be shown. -/
def crane : ClassDecl :=
  { package := "depot", simpleName := "Crane", origin := some ⟨"Crane.kt", some 3⟩,
    supers := [{ type := { name := "Machine", package := "depot" } }],
    constructorParams := [⟨"load", pallet⟩],
    properties := [{ name := "parts", type := .list }] }

theorem class_refused_by_first_condition_of_crane :
    ∃ ctx : Context, Table.ofSession [] [] false = .ok ctx.table ∧
      (∀ s ∈ (Declaration.cls crane).mentions, Readable s) ∧
      ofClass ctx crane = .error
        (.refused { cause := .unmappable pallet unmappableReason, member := some "load" }) ∧
      ∃ before member type after, classConditions crane = before ++ .shown member type :: after ∧
        (∀ b ∈ before, b.Holds ctx) ∧ ctx.table.exported type = .error (.unmappable pallet) ∧
          ((Request.declaration (.cls crane) []).fulfil ctx).diagnostics =
            [⟨.error, unmappableMessage pallet unmappableReason, some ⟨"Crane.kt", some 3⟩,
              some member⟩] := by
  have hread : ∀ s ∈ (Declaration.cls crane).mentions, Readable s := by decide
  have hmachine : builtinTable.exported { name := "Machine", package := "depot" } =
      .ok { name := "Machine", package := "depot" } := by decide
  have hload : builtinTable.exported pallet = .error (.unmappable pallet) := by decide
  have h := @class_refused_by_first_condition { table := builtinTable } [] [] false
    ofSession_builtinTable crane
  have hfirst : FirstViolated { table := builtinTable } (classConditions crane) _ :=
    ⟨[.closed crane.toTemplate, .shown "Machine" { name := "Machine", package := "depot" }],
      .shown "load" pallet, [.shown "parts" .list], rfl,
      List.forall_mem_cons.2 ⟨rfl, List.forall_mem_singleton.2 ⟨_, hmachine⟩⟩, .shown hload⟩
  have hF := (h.refused (h.writable hread) _).2 hfirst
  obtain ⟨before, member, type, after, hlist, hbefore, hfault, hdiagnostics⟩ :=
    h.diagnosed _ pallet unmappableReason hF rfl
  exact ⟨{ table := builtinTable }, ofSession_builtinTable, hread, hF, before, member, type, after,
    hlist, hbefore, hfault, hdiagnostics []⟩

/-- A class with a callback on an instance of a generic declaration. -/
def relay (argument : Shape) : ClassDecl :=
  { package := "depot", simpleName := "Relay",
    functions := [{ name := "onLoad", result := .unit,
                    params := [⟨"handler", boxCallback argument⟩] }] }

/-- A class that takes a box of any type can be wrapped. -/
theorem wrappable_relay (argument : Shape) :
    Wrappable { table := boxTable argument } (relay argument) where
  closed := rfl
  supers := List.forall_mem_nil _
  bases := List.forall_mem_nil _
  construction := .inr (List.forall_mem_nil _)
  properties := List.forall_mem_nil _
  params := List.forall_mem_singleton.2
    (List.forall_mem_singleton.2 (exported_boxCallback argument))
  results := List.forall_mem_singleton.2 (.inl rfl)

/-- A class that meets all conditions need not be wrapped: the callback can be shown, but the type
of its parameter cannot be written. -/
theorem exists_wrappable_unwrapped :
    ∃ exported ctx c, Table.ofSession exported [] false = .ok ctx.table ∧ Wrappable ctx c ∧
      ∀ F, ofClass ctx c ≠ .ok F := by
  let argument := longNumber (Text.maxDigits + 1)
  refine ⟨_, { table := boxTable argument }, relay argument, ofSession_boxTable argument,
    wrappable_relay argument, ?_⟩
  intro F hF
  have hwrites := ((agrees_ofClass _ (relay argument)).ok F hF).2
  have hlambda : writes { table := boxTable argument } (.cls (relay argument)) =
      [boxOf argument] := by
    have hunit : isUnit .unit = true := by decide
    simp [writes, constructorWrites, memberWrites, functionWrites, relay, hunit,
      Direction.flip, written_boxCallback, Table.writtenType]
  rw [hlambda] at hwrites
  exact not_readable_boxOf (Nat.lt_succ_self _) (hwrites _ (List.mem_singleton_self _))

end Refused

end Wrapper
end Facade
