import Facade.Proofs.DeclaredTypes
import Facade.Proofs.EnumeratedEntries
import Facade.Proofs.FreshNames

/-!
# Names of delegates and locals

The wrapper of a class and the two adapters of an interface hold the value that they forward to as
a property, the delegate.  A forwarded function may hold the result of the call as a local before
it is converted.  Members and parameters are named by the declaration, which may use the same
names; then delegate and local get underscores.

**Input.**  A class or an interface with any members, and the context of its session.

**Results.**
* `keptApart_fresh`: a fresh name differs from what is taken, also as that is written in source.
* `functionApart_of_wrapFunction`: the names in a forwarded function.
* `typeApart_of_members`: the names in a type that forwards to a delegate.
* `generated_names_are_fresh`: how fresh names are found, and that they keep the names of every file
  apart.
-/

namespace Facade

open Code Wrapper Source Mapping

namespace Source

/-- The names that the body of a function binds. -/
def FunctionDef.locals (f : FunctionDef) : List String :=
  (f.body.getD []).filterMap fun
    | .bind name _ => some name
    | _ => none

/-- The names of the properties that the primary constructor of a type declares. -/
def TypeDef.held (t : TypeDef) : List String :=
  t.primary.toList.flatMap fun k =>
    (k.params.filter fun p => "val" ∈ p.modifiers).map ParameterDef.name

end Source

namespace Name

/-- A name is written in source, and `other` differs from the name and from what is written. -/
structure KeptApart (other name written : String) : Prop where
  written_eq : written = safe name
  ne_name : other ≠ name
  ne_written : other ≠ written

/-- A name is kept apart from another one also when that is written in backticks. -/
theorem keptApart_safe {name other : String}
    (hhead : other.toList.head? ≠ some '`')
    (hne : other ≠ name) :
    KeptApart other name (safe name) := by
  refine ⟨rfl, hne, fun heq => ?_⟩
  rcases safe_eq_or name with hquoted | ⟨hplain, -⟩
  · rw [heq, hquoted] at hhead
    simp at hhead
  · exact hne (heq.trans hplain)

/-- A fresh name is kept apart from every name that was taken. -/
theorem keptApart_fresh {preferred name written : String} {taken : List String} {c : Char}
    (hhead : preferred.toList.head? = some c)
    (hc : c ≠ '`')
    (hmem : name ∈ taken)
    (hwritten : written = safe name) :
    KeptApart (fresh preferred taken) name written := by
  rw [hwritten]
  refine keptApart_safe ?_ fun heq => fresh_not_mem preferred taken (heq ▸ hmem)
  rw [head?_fresh taken hhead]
  exact fun h => hc (Option.some.inj h)

end Name

namespace Wrapper

/-- The names of a forwarded function: the delegate is neither the function nor one of its
parameters, the name for the result is neither the delegate nor a parameter, and the body binds no
other name. -/
structure FunctionApart (delegate : String) (f : Function) (f' : FunctionDef) : Prop where
  name : Name.KeptApart delegate f.name f'.name
  params : List.Forall₂ (fun p p' => Name.KeptApart delegate p.name p'.name) f.params f'.params
  result_ne : resultName f.params ≠ delegate
  result_params : List.Forall₂ (fun p p' => Name.KeptApart (resultName f.params) p.name p'.name)
    f.params f'.params
  locals : ∀ r ∈ f'.locals, r = resultName f.params

/-- The names of a type that wraps the members of a declaration: the delegate is all that it holds,
and is neither a member, nor anything that a member binds, nor what setters call the new value. -/
structure TypeApart (delegate : String) (d : Template) (t : TypeDef) : Prop where
  held : t.held = [delegate]
  ne_value : delegate ≠ "value"
  properties :
    List.Forall₂ (fun p p' => Name.KeptApart delegate p.name p'.name) d.properties t.properties
  functions : List.Forall₂ (FunctionApart delegate) d.functions t.functions

section Members

variable {ctx : Context} {side : Direction} {delegate : String} {modifiers : List String}

theorem names_of_wrapParameters {function : String} {params : List Parameter}
    {params' : List ParameterDef}
    (h : params.mapM (wrapParameter ctx side function) = .ok params') :
    List.Forall₂ (fun p p' => p'.name = Name.safe p.name) params params' := by
  refine (Outcome.mapM_eq_ok_iff.1 h).imp fun p p' hp => ?_
  obtain ⟨type, -, hp⟩ := Outcome.bind_eq_ok_iff.1 hp
  obtain rfl := Except.ok.inj hp
  rfl

/-- The names of a forwarded function, seen from either side. -/
theorem names_of_wrapFunction {f : Function} {f' : FunctionDef}
    (h : wrapFunction ctx side delegate modifiers f = .ok f') :
    f'.name = Name.safe f.name ∧
      List.Forall₂ (fun p p' => p'.name = Name.safe p.name) f.params f'.params ∧
      ∀ r ∈ f'.locals, r = resultName f.params := by
  obtain ⟨params, args, hparams, -, hresult⟩ := wrapFunction_eq_ok h
  rcases hresult with ⟨-, rfl⟩ | ⟨-, converted, type, -, -, rfl⟩
  · exact ⟨rfl, names_of_wrapParameters hparams, by simp [FunctionDef.locals]⟩
  · refine ⟨rfl, names_of_wrapParameters hparams, ?_⟩
    -- A result that is handed on as it is needs no local.
    by_cases hplain : converted.source = resultName f.params
    · simp [FunctionDef.locals, hplain]
    · simp [FunctionDef.locals, hplain]

end Members

section Delegates

variable {ctx : Context} {side : Direction} {base : String} {d : Template} {t : TypeDef}

/-- The names that delegates have unless they are taken. -/
def IsDelegateBase (base : String) : Prop :=
  base = "common" ∨ base = "exported"

theorem IsDelegateBase.exists_head? (h : IsDelegateBase base) :
    ∃ c, base.toList.head? = some c ∧ c ≠ '`' ∧ c ≠ 'r' ∧ c ≠ 'v' := by
  rcases h with rfl | rfl
  · exact ⟨'c', by decide⟩
  · exact ⟨'e', by decide⟩

/-- A delegate avoids the names of all members and of all their parameters. -/
theorem mem_wrappedNames_iff {name : String} :
    name ∈ wrappedNames d ↔ (∃ p ∈ d.properties, p.name = name) ∨
      (∃ f ∈ d.functions, f.name = name) ∨ ∃ f ∈ d.functions, ∃ p ∈ f.params, p.name = name := by
  simp [wrappedNames]

/-- The delegate of a wrapper is kept apart from every name of its members. -/
theorem keptApart_delegateOf {name written : String}
    (hbase : IsDelegateBase base)
    (hmem : name ∈ wrappedNames d)
    (hwritten : written = Name.safe name) :
    Name.KeptApart (delegateOf base d) name written := by
  obtain ⟨c, hhead, hquote, -, -⟩ := hbase.exists_head?
  exact Name.keptApart_fresh hhead hquote hmem hwritten

/-- Delegates, results and the new values of setters are told apart by their first letters. -/
theorem delegateOf_ne_of_head? {name : String}
    (hbase : IsDelegateBase base)
    (hname : name.toList.head? = some 'r' ∨ name.toList.head? = some 'v') :
    delegateOf base d ≠ name := by
  obtain ⟨c, hhead, -, hresult, hvalue⟩ := hbase.exists_head?
  rintro rfl
  rw [delegateOf, Name.head?_fresh _ hhead] at hname
  rcases hname with h | h
  · exact hresult (Option.some.inj h)
  · exact hvalue (Option.some.inj h)

/-- A wrapped function keeps its delegate and its locals apart from its parameters. -/
theorem functionApart_of_wrapFunction {modifiers : List String} {f : Function} {f' : FunctionDef}
    (hbase : IsDelegateBase base)
    (hf : f ∈ d.functions)
    (h : wrapFunction ctx side (delegateOf base d) modifiers f = .ok f') :
    FunctionApart (delegateOf base d) f f' := by
  obtain ⟨hname, hparams, hlocals⟩ := names_of_wrapFunction h
  have hmem : f.name ∈ wrappedNames d := mem_wrappedNames_iff.2 (.inr (.inl ⟨f, hf, rfl⟩))
  have hparam : ∀ p ∈ f.params, p.name ∈ wrappedNames d := fun p hp =>
    mem_wrappedNames_iff.2 (.inr (.inr ⟨f, hf, p, hp, rfl⟩))
  refine ⟨keptApart_delegateOf hbase hmem hname, ?_, ?_, ?_, hlocals⟩
  · exact Outcome.forall₂_imp_of_mem hparams fun p hp p' hp' =>
      keptApart_delegateOf hbase (hparam p hp) hp'
  · exact (delegateOf_ne_of_head? hbase (.inl (head?_resultName f.params))).symm
  · exact Outcome.forall₂_imp_of_mem hparams fun p hp p' hp' =>
      Name.keptApart_fresh rfl (by decide) (List.mem_map_of_mem hp) hp'

/-- A type keeps its delegate apart from its members if each of them does. -/
theorem typeApart_of_members {propertyModifiers : Property → List String}
    {functionModifiers : Function → List String}
    (hbase : IsDelegateBase base)
    (hheld : t.held = [delegateOf base d])
    (hproperties : List.Forall₂ (fun p p' =>
      wrapProperty ctx side (delegateOf base d) (propertyModifiers p) p = .ok p')
      d.properties t.properties)
    (hfunctions : List.Forall₂ (fun f f' =>
      wrapFunction ctx side (delegateOf base d) (functionModifiers f) f = .ok f')
      d.functions t.functions) :
    TypeApart (delegateOf base d) d t where
  held := hheld
  ne_value := delegateOf_ne_of_head? hbase (.inr rfl)
  properties := by
    refine Outcome.forall₂_imp_of_mem hproperties fun p hp p' hwrap => ?_
    obtain ⟨setter, type, getter, -, -, -, rfl⟩ := wrapProperty_eq_ok hwrap
    exact keptApart_delegateOf hbase (mem_wrappedNames_iff.2 (.inl ⟨p, hp, rfl⟩)) rfl
  functions := Outcome.forall₂_imp_of_mem hfunctions fun _ hf _ hwrap =>
    functionApart_of_wrapFunction hbase hf hwrap

end Delegates

section Files

variable {ctx : Context} {F : File}

/-- The wrapper of a class keeps its delegate apart. -/
theorem typeApart_of_ofClass {c : ClassDecl}
    (h : ofClass ctx c = .ok F) :
    ∃ t, F.types = [t] ∧ TypeApart (delegateOf "common" c.toTemplate) c.toTemplate t := by
  obtain ⟨ancestry, constructors, properties, functions, -, -, hproperties, hfunctions, rfl⟩ :=
    ofClass_eq_ok h
  exact ⟨_, rfl, typeApart_of_members (.inl rfl) rfl hproperties hfunctions⟩

theorem typeApart_of_adapter {side : Direction} {name base : String} {held implemented : Shape}
    {i : InterfaceDecl} {t : TypeDef}
    (hbase : IsDelegateBase base)
    (h : adapter ctx side name (delegateOf base i.toTemplate) held implemented i = .ok t) :
    TypeApart (delegateOf base i.toTemplate) i.toTemplate t := by
  obtain ⟨properties, functions, hproperties, hfunctions, rfl⟩ := adapter_eq_ok h
  exact typeApart_of_members hbase rfl hproperties hfunctions

/-- The shown interface holds nothing. -/
theorem held_of_shownInterface {i : InterfaceDecl} {t : TypeDef}
    (h : shownInterface ctx i = .ok t) :
    t.held = [] := by
  obtain ⟨interfaces, properties, functions, -, -, -, rfl⟩ := shownInterface_eq_ok h
  rfl

/-- Both adapters of an interface keep their delegates apart; the interface itself has none. -/
theorem typeApart_of_ofInterface {i : InterfaceDecl}
    (h : ofInterface ctx i = .ok F) :
    ∃ shown outward inward, F.types = [shown, outward, inward] ∧ shown.held = [] ∧
      TypeApart (delegateOf "common" i.toTemplate) i.toTemplate outward ∧
      TypeApart (delegateOf "exported" i.toTemplate) i.toTemplate inward := by
  obtain ⟨-, shown, outward, inward, hshown, houtward, hinward, rfl⟩ := ofInterface_eq_ok h
  exact ⟨shown, outward, inward, rfl, held_of_shownInterface hshown,
    typeApart_of_adapter (.inl rfl) houtward, typeApart_of_adapter (.inr rfl) hinward⟩

end Files

/-- A fresh name is found by appending underscores until the name is free, however many that takes:
the search ends, with the least number of them.  Hence no file of a class or an interface gives a
delegate the name of a wrapped member, of a parameter or of the new value in a setter, nor a local
the name of a parameter or of the delegate. -/
theorem generated_names_are_fresh :
    (∀ (preferred : String) (taken : List String),
      StateTransition.eval (Name.lengthen? taken) preferred =
          Part.some (Name.fresh preferred taken) ∧
        ∃ n ≤ taken.toFinset.card, Name.fresh preferred taken = preferred.pushn '_' n ∧
          IsLeast {k | preferred.pushn '_' k ∉ taken} n) ∧
    (∀ ctx c F, ofClass ctx c = .ok F →
      ∃ t, F.types = [t] ∧ TypeApart (delegateOf "common" c.toTemplate) c.toTemplate t) ∧
    ∀ ctx i F, ofInterface ctx i = .ok F →
      ∃ shown outward inward, F.types = [shown, outward, inward] ∧ shown.held = [] ∧
        TypeApart (delegateOf "common" i.toTemplate) i.toTemplate outward ∧
        TypeApart (delegateOf "exported" i.toTemplate) i.toTemplate inward := by
  refine ⟨fun preferred taken => ?_, fun ctx c F => typeApart_of_ofClass,
    fun ctx i F => typeApart_of_ofInterface⟩
  exact ⟨Name.eval_lengthen? preferred taken, Name.exists_isLeast_fresh preferred taken⟩

section Crowded

/-- Members and parameters that take the names of delegates and locals. -/
def crowded (simpleName : String) : Template :=
  { package := "depot", simpleName,
    properties := [{ name := "common", type := .long },
      { name := "value", type := .long, isMutable := true }],
    functions := [{ name := "exported", result := .long,
                    params := [{ name := "common_", type := .string },
                      { name := "result", type := .long },
                      { name := "result_", type := .long }] }] }

def crowdedRequests : List Request :=
  [.declaration (.cls { toTemplate := crowded "Crate" }) [],
    .declaration (.interface { toTemplate := crowded "Ledger" }) []]

theorem exists_files_of_crowdedRequests :
    ∃ ctx F I, Session.start crowdedRequests [] false = .ok ctx ∧
      ofClass ctx { toTemplate := crowded "Crate" } = .ok F ∧
      ofInterface ctx { toTemplate := crowded "Ledger" } = .ok I ∧
      F.types.map (fun t => t.functions.map FunctionDef.locals) = [[["result__"]]] := by
  obtain ⟨ctx, hctx, h⟩ := @exists_start_of_any crowdedRequests [] false
    (fun ctx => (ofClass ctx { toTemplate := crowded "Crate" }).toOption.any fun F =>
      (ofInterface ctx { toTemplate := crowded "Ledger" }).toOption.any fun _ =>
        F.types.map (fun t => t.functions.map FunctionDef.locals) = [[["result__"]]])
    (by decide +kernel)
  obtain ⟨F, hF, h⟩ := Outcome.exists_ok_of_any h
  obtain ⟨I, hI, hlocals⟩ := Outcome.exists_ok_of_any h
  exact ⟨ctx, F, I, hctx, hF, hI, of_decide_eq_true hlocals⟩

/-- Every name that a delegate or a local would have first is taken, some even with underscores. -/
theorem generated_names_are_fresh_of_crowded :
    ∃ ctx F I t shown outward inward, Session.start crowdedRequests [] false = .ok ctx ∧
      ofClass ctx { toTemplate := crowded "Crate" } = .ok F ∧
      ofInterface ctx { toTemplate := crowded "Ledger" } = .ok I ∧
      F.types = [t] ∧ t.functions.map FunctionDef.locals = [["result__"]] ∧
      TypeApart "common__" (crowded "Crate") t ∧
      I.types = [shown, outward, inward] ∧
      TypeApart "common__" (crowded "Ledger") outward ∧
      TypeApart "exported_" (crowded "Ledger") inward := by
  obtain ⟨ctx, F, I, hctx, hF, hI, hlocals⟩ := exists_files_of_crowdedRequests
  obtain ⟨-, hclass, hinterface⟩ := generated_names_are_fresh
  obtain ⟨t, htypes, hapart⟩ := hclass ctx _ F hF
  obtain ⟨shown, outward, inward, htypes', -, houtward, hinward⟩ := hinterface ctx _ I hI
  have hcommon : ∀ name, delegateOf "common" (crowded name) = "common__" := fun _ => rfl
  have hexported : ∀ name, delegateOf "exported" (crowded name) = "exported_" := fun _ => rfl
  rw [htypes] at hlocals
  rw [hcommon] at hapart houtward
  rw [hexported] at hinward
  exact ⟨ctx, F, I, t, shown, outward, inward, hctx, hF, hI, htypes, by simpa using hlocals, hapart,
    htypes', houtward, hinward⟩

end Crowded

end Wrapper
end Facade
