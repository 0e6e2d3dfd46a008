import Facade.Proofs.Conditions

/-!
# Faults of members

A type that cannot be shown or converted is named by the fault, and a fault of the type of a member
becomes a diagnostic of the declaration.  Only a fault that says that a type cannot be shown leads
to a diagnostic with the name of the member: a collection without an element type and a number
that cannot be read are reported as internal errors.

**Input.**  The context of a session, and types or requests.

**Results.**
* `concerns_of_fails`: a fault is about a part of the type.
* `reported_of_mem_diagnostics`: where the diagnostics of a request come from.
* `member_faults_are_attributed`: both, with the types whose faults are always attributed.
-/

namespace Facade
namespace Mapping

open Outcome

section Faults

variable {exported : List (Shape × String)} {extra : List Shape} {erase : Bool} {T : Table}

/-- The type cannot be shown, or a value of it cannot be converted. -/
def Table.Fails (T : Table) (s : Shape) (f : Fault) : Prop :=
  T.exported s = .error f ∨ ∃ d e, T.convert d e s = .error f

/-- An array or a list. -/
def IsSequence (s : Shape) : Prop :=
  s.key = Shape.array.key ∨ s.key = Shape.list.key

/-- The fault is about a part of the type. -/
inductive Concerns (s : Shape) : Fault → Prop
  | unmappable {u : Shape}
      (hu : u ∈ s.parts) :
      Concerns s (.unmappable u)
  | noElement {u : Shape}
      (hu : u ∈ s.parts)
      (hsequence : IsSequence u)
      (hargs : u.args = []) :
      Concerns s (.noArguments u.key)
  | number {o : Text.Overlong}
      (h : HasOverlong s o) :
      Concerns s (.overlong o)

/-- Every array and every list in the type has an element type. -/
def HasElements (s : Shape) : Prop :=
  ∀ u ∈ s.parts, IsSequence u → u.args ≠ []

/-- A fault that concerns an argument concerns the type. -/
theorem Concerns.of_mem_args {s a : Shape} {f : Fault}
    (h : Concerns a f)
    (ha : a ∈ s.args) :
    Concerns s f := by
  cases h with
  | unmappable hu => exact .unmappable (parts_subset_of_mem_args ha hu)
  | noElement hu hsequence hargs =>
      exact .noElement (parts_subset_of_mem_args ha hu) hsequence hargs
  | number h => exact .number (h.of_mem_args ha)

/-- If collections have elements and numbers can be read, a fault is a part that has no rule. -/
theorem Concerns.exists_unmappable {s : Shape} {f : Fault}
    (h : Concerns s f)
    (helements : HasElements s)
    (hread : Readable s) :
    ∃ u ∈ s.parts, f = .unmappable u := by
  cases h with
  | unmappable hu => exact ⟨_, hu, rfl⟩
  | noElement hu hsequence hargs => exact absurd hargs (helements _ hu hsequence)
  | number h => exact absurd h (not_hasOverlong hread)

theorem overlong?_of_conversion? {s : Shape} {o : Text.Overlong}
    (hT : Table.ofSession exported extra erase = .ok T)
    (h : T.conversion? s = .error o) :
    s.overlong? = some o := by
  rw [conversion?_ofSession hT] at h
  split at h
  · simp at h
  · cases ho : s.overlong? with
    | some o' =>
        obtain rfl : o' = o := by simpa [Shape.checkFunction, ho, Except.map] using h
        rfl
    | none => simp [Shape.checkFunction, ho, Except.map] at h

theorem isSequence_of_isCollection {s : Shape}
    (hT : Table.ofSession exported extra erase = .ok T)
    (h : T.IsCollection s) :
    IsSequence s := by
  rcases h with h | h
  · cases lookup_ofSession hT h with
    | array hkey => exact .inl hkey
  · cases lookup_ofSession hT h with
    | list hkey => exact .inr hkey

/-- Whatever blocks a type concerns it. -/
theorem concerns_of_blocks {s : Shape} {f : Fault}
    (hT : Table.ofSession exported extra erase = .ok T)
    (h : T.Blocks s f) :
    Concerns s f := by
  induction h with
  | number h => exact .number ⟨_, Shape.self_mem_parts _, overlong?_of_conversion? hT h⟩
  | noElement h hargs =>
      exact .noElement (Shape.self_mem_parts _) (isSequence_of_isCollection hT h) hargs
  | element h hargs ha ih => exact ih.of_mem_args (by simp [hargs])
  | argument h hargs hbefore ha ih => exact ih.of_mem_args (by simp [hargs])
  | unregistered h hargs hne => exact .unmappable (Shape.self_mem_parts _)

theorem concerns_of_fails {s : Shape} {f : Fault}
    (hT : Table.ofSession exported extra erase = .ok T)
    (h : T.Fails s f) :
    Concerns s f := by
  rcases h with h | ⟨d, e, h⟩
  · exact concerns_of_blocks hT (Table.exported_eq_error_iff.1 h)
  · rcases (T.convertsAsShown s d e).error f h with h | ⟨o, ⟨u, hu, ho⟩, rfl⟩
    · exact concerns_of_blocks hT (Table.exported_eq_error_iff.1 (verdict_eq_error_iff.1 h))
    · exact .number (hasOverlong_of_mem_written hT s d u o hu (hasOverlong_of_checkNumbers ho))

end Faults

end Mapping

namespace Wrapper

open Mapping Outcome

/-- Where a diagnostic of a request comes from. -/
inductive Reported (ctx : Context) (r : Request) : Diagnostic → Prop
  /-- The type of a member cannot be shown. -/
  | member {d : Declaration} {member : String} {type : Shape} {f : Fault}
      (hd : r.subject = .ok d)
      (hmember : .shown member type ∈ conditions d)
      (hfault : ctx.table.exported type = .error f) :
      Reported ctx r (memberDiagnostic r.decl.origin member f)
  /-- The type of a member has a number that cannot be read, and a lambda writes it out. -/
  | number {d : Declaration} {member : String} {type u : Shape} {side : Direction}
      {o : Text.Overlong}
      (hd : r.subject = .ok d)
      (hmember : .shown member type ∈ conditions d)
      (hwritten : u ∈ ctx.table.written side type)
      (ho : HasOverlong type o) :
      Reported ctx r (memberDiagnostic r.decl.origin member (.overlong o))
  /-- A type argument of the declaration or the name of a subclass has such a number. -/
  | own {d : Declaration} {u : Shape} {o : Text.Overlong}
      (hd : r.subject = .ok d)
      (hu : u ∈ ownWrites d)
      (ho : HasOverlong u o) :
      Reported ctx r (Request.internalError r.decl.origin o.message)
  /-- The declaration is refused for a reason that is not about types of members. -/
  | declaration {refusal : Refusal}
      (hmember : refusal.member = none)
      (hkind : refusal.cause.kind ≠ .unmappable) :
      Reported ctx r (.ofRefusal (refusal.placed r.decl.origin none))

section Requests

variable {exported : List (Shape × String)} {extra : List Shape} {erase : Bool} {ctx : Context}

theorem plain_of_ofArgs? {params : List String} {args : List Shape} {origin : Option Location}
    {refusal : Refusal}
    (h : (Binding.ofArgs? params args).mapError (·.placed origin none) = .error refusal) :
    refusal.member = none ∧ refusal.cause.kind ≠ .unmappable := by
  cases hargs : Binding.ofArgs? params args with
  | ok b => simp [hargs, Except.mapError] at h
  | error r =>
      obtain ⟨-, rfl⟩ := (Binding.ofArgs?_eq_error_iff params args r).1 hargs
      rw [hargs] at h
      obtain rfl := Except.error.inj h
      exact ⟨rfl, by simp [Refusal.placed, Refusal.Cause.kind]⟩

/-- An instantiation is refused without naming a member. -/
theorem plain_of_instantiate {d : Declaration} {args : List Shape} {name : Option String}
    {refusal : Refusal}
    (h : d.instantiate args name = .error refusal) :
    refusal.member = none ∧ refusal.cause.kind ≠ .unmappable := by
  cases d with
  | cls c =>
      rcases bind_eq_error_iff.1 h with h | ⟨b, -, h⟩
      · exact plain_of_ofArgs? h
      · simp at h
  | interface i =>
      rcases bind_eq_error_iff.1 h with h | ⟨b, -, h⟩
      · exact plain_of_ofArgs? h
      · simp at h
  | sealed d =>
      obtain rfl := Except.error.inj h
      exact ⟨rfl, by simp [Refusal.Cause.kind]⟩
  | enumeration e =>
      obtain rfl := Except.error.inj h
      exact ⟨rfl, by simp [Refusal.Cause.kind]⟩
  | other kind header =>
      obtain rfl := Except.error.inj h
      exact ⟨rfl, by simp [Refusal.Cause.kind]⟩

/-- A request that cannot be instantiated is refused, and no member is named. -/
theorem exists_refusal_of_subject {r : Request} {F : Failure}
    (h : r.subject = .error F) :
    ∃ refusal, F = .refused refusal ∧ refusal.member = none ∧
      refusal.cause.kind ≠ .unmappable := by
  cases r with
  | declaration d sources => simp [Request.subject] at h
  | generics name d args sources =>
      cases hd : d.instantiate args (some name) with
      | ok d' => simp [Request.subject, hd, Except.mapError] at h
      | error refusal =>
          obtain rfl : Failure.refused refusal = F := by
            simpa [Request.subject, hd, Except.mapError] using h
          exact ⟨refusal, rfl, plain_of_instantiate hd⟩

/-- The failure of a declaration is reported at the declaration. -/
theorem reported_of_ofDeclaration {r : Request} {d : Declaration} {F : Failure}
    (hT : Table.ofSession exported extra erase = .ok ctx.table)
    (hd : r.subject = .ok d)
    (h : ofDeclaration ctx d = .error F) :
    Reported ctx r (Request.diagnose r.decl.origin F) := by
  rcases (agrees_ofDeclaration ctx d).error F h with hfirst | ⟨o, ⟨u, hu, ho⟩, rfl⟩
  · obtain ⟨before, c, after, hlist, -, hc⟩ := forM_check_eq_error_iff.1 hfirst
    rcases hc.member_or_plain with ⟨member, type, f, rfl, hf, rfl⟩ | ⟨refusal, rfl, hmember, hkind⟩
    · rw [diagnose_placed]
      exact .member hd (by simp [hlist]) hf
    · exact .declaration hmember hkind
  · -- The number belongs to a type that the wrapper writes out, wherever wrapping came to it.
    have hnumber := hasOverlong_of_checkNumbers ho
    rcases exists_of_mem_writes hu with ⟨member, type, side, hmember, hu⟩ | hu
    · exact .number hd hmember hu (hasOverlong_of_mem_written hT type side u o hu hnumber)
    · exact .own hd hu hnumber

/-- Every diagnostic of a request is reported at its declaration. -/
theorem reported_of_mem_diagnostics {r : Request} {D : Diagnostic}
    (hT : Table.ofSession exported extra erase = .ok ctx.table)
    (h : D ∈ (r.fulfil ctx).diagnostics) :
    Reported ctx r D := by
  cases hbuild : r.build ctx with
  | ok F => simp [Request.fulfil, hbuild] at h
  | error F =>
      rw [diagnostics_of_build hbuild, List.mem_singleton] at h
      subst h
      rcases bind_eq_error_iff.1 hbuild with hsubject | ⟨d, hd, hF⟩
      · obtain ⟨refusal, rfl, hmember, hkind⟩ := exists_refusal_of_subject hsubject
        exact .declaration hmember hkind
      · exact reported_of_ofDeclaration hT hd hF

/-- Faults of types, and what requests report of them. -/
structure FaultsAttributed (ctx : Context) : Prop where
  /-- A fault is about a part of the type. -/
  concerned : ∀ s f, ctx.table.Fails s f → Concerns s f
  /-- It says that the part cannot be shown, unless there is a collection without an element type
  or a number that cannot be read. -/
  unmappable : ∀ s f, ctx.table.Fails s f → HasElements s → Readable s →
    ∃ u ∈ s.parts, f = .unmappable u
  /-- A diagnostic is about the type of a member or about the declaration. -/
  reported : ∀ r D, D ∈ (r.fulfil ctx).diagnostics → Reported ctx r D
  /-- One about a member has the origin of the declaration and the name of the member, if
  collections in the types of members have element types and their numbers can be read. -/
  named : ∀ (r : Request) (d : Declaration) (D : Diagnostic), r.subject = .ok d →
    D ∈ (r.fulfil ctx).diagnostics →
    (∀ member type, .shown member type ∈ conditions d → HasElements type ∧ Readable type) →
      (∃ member type u, .shown member type ∈ conditions d ∧ u ∈ type.parts ∧
        D = ⟨.error, unmappableMessage u unmappableReason, r.decl.origin, some member⟩) ∨
      (∃ u ∈ ownWrites d, ∃ o, HasOverlong u o ∧
        D = Request.internalError r.decl.origin o.message) ∨
      ∃ refusal : Refusal, refusal.member = none ∧ refusal.cause.kind ≠ .unmappable ∧
        D = .ofRefusal (refusal.placed r.decl.origin none)

/-- A type that cannot be shown is reported with the member that mentions it and the location of the
declaration. -/
theorem member_faults_are_attributed
    (hT : Table.ofSession exported extra erase = .ok ctx.table) :
    FaultsAttributed ctx where
  concerned _ _ h := concerns_of_fails hT h
  unmappable _ _ h helements hread := (concerns_of_fails hT h).exists_unmappable helements hread
  reported _ _ h := reported_of_mem_diagnostics hT h
  named r d D hd h htypes := by
    cases reported_of_mem_diagnostics hT h with
    | member hd' hmember hfault =>
        obtain rfl := Except.ok.inj (hd.symm.trans hd')
        obtain ⟨helements, hread⟩ := htypes _ _ hmember
        have hconcerns := concerns_of_fails hT (.inl hfault)
        obtain ⟨u, hu, rfl⟩ := hconcerns.exists_unmappable helements hread
        exact .inl ⟨_, _, u, hmember, hu, rfl⟩
    | number hd' hmember hwritten ho =>
        obtain rfl := Except.ok.inj (hd.symm.trans hd')
        exact absurd ho (not_hasOverlong (htypes _ _ hmember).2)
    | own hd' hu ho =>
        obtain rfl := Except.ok.inj (hd.symm.trans hd')
        exact .inr (.inl ⟨_, hu, _, ho, rfl⟩)
    | declaration hmember hkind => exact .inr (.inr ⟨_, hmember, hkind, rfl⟩)

/-- A sealed class whose member has a type that cannot be shown. -/
def dock : SealedDecl :=
  { package := "depot", simpleName := "Dock", origin := some ⟨"Dock.kt", some 7⟩,
    functions := [{ name := "unload", result := .listOf pallet }] }

theorem member_faults_are_attributed_of_dock :
    ∃ ctx : Context, Table.ofSession [] [] false = .ok ctx.table ∧
      ctx.table.Fails (.listOf pallet) (.unmappable pallet) ∧
      Concerns (.listOf pallet) (.unmappable pallet) ∧
      ((Request.declaration (.sealed dock) []).fulfil ctx).diagnostics =
        [⟨.error, unmappableMessage pallet unmappableReason, some ⟨"Dock.kt", some 7⟩,
          some "unload"⟩] ∧
      Reported ctx (.declaration (.sealed dock) [])
        ⟨.error, unmappableMessage pallet unmappableReason, some ⟨"Dock.kt", some 7⟩,
          some "unload"⟩ := by
  have hfault : builtinTable.exported (.listOf pallet) = .error (.unmappable pallet) := by decide
  have h := @member_faults_are_attributed [] [] false { table := builtinTable }
    ofSession_builtinTable
  have hwrites : ∀ u ∈ writes { table := builtinTable } (.sealed dock), Readable u :=
    List.forall_mem_nil _
  have hlist : conditions (.sealed dock) = [] ++ [.shown "unload" (.listOf pallet)] := rfl
  have hdiagnostics := diagnostics_of_first_shown hwrites hlist (List.forall_mem_nil _) hfault []
  refine ⟨{ table := builtinTable }, ofSession_builtinTable, .inl hfault,
    h.concerned _ _ (.inl hfault), hdiagnostics, ?_⟩
  exact h.reported _ _ (hdiagnostics ▸ List.mem_singleton_self _)

/-- A class with a list without an element type. -/
def hangar : ClassDecl :=
  { package := "depot", simpleName := "Hangar", origin := some ⟨"Hangar.kt", some 5⟩,
    properties := [{ name := "bays", type := .list }] }

/-- The fault of the only member is reported as an internal error that names no member. -/
theorem exists_unattributed_member :
    ∃ ctx : Context, Table.ofSession [] [] false = .ok ctx.table ∧
      conditions (.cls hangar) = [.closed hangar.toTemplate, .shown "bays" .list] ∧
      ctx.table.exported .list = .error (.noArguments Shape.list.key) ∧
      ((Request.declaration (.cls hangar) []).fulfil ctx).diagnostics =
        [{ severity := .error
           message := "Internal error: ValueError(" ++
             Text.quoted "kotlin.collections.List has no type arguments" ++ ")"
           location := some ⟨"Hangar.kt", some 5⟩
           member := none }] := by
  have hfault : builtinTable.exported .list = .error (.noArguments Shape.list.key) := by decide
  have hwrites : ∀ u ∈ writes { table := builtinTable } (.cls hangar), Readable u := by decide
  have hlist : conditions (.cls hangar) =
      [.closed hangar.toTemplate] ++ [.shown "bays" .list] := rfl
  refine ⟨{ table := builtinTable }, ofSession_builtinTable, rfl, hfault, ?_⟩
  exact diagnostics_of_first_shown hwrites hlist (List.forall_mem_singleton.2 rfl) hfault []

end Requests

end Wrapper
end Facade
