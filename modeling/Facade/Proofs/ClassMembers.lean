import Facade.Proofs.Descriptions
import Facade.Proofs.ReferenceRoundTrip

/-!
# What becomes of the methods of a class

Every method that is not left out should be found again among the members of its class: as the
getter or the setter of a property, or as a function.  Getters and functions are.  A setter is only
told by its name, so it is lost when no property has its name and its type, and a property may count
as mutable although no setter takes its values.

**Input.**  A compiled class, and the methods that the virtual machine tells.

**Algorithm.**  The methods are gone through in order, and each is told apart by its name, its
number of parameters and its result.

**Results.**
* `getter?_eq_some_iff` and `isSetter_iff`: which methods are accessors.
* `add_eq_ok_iff` and `foldlM_add_eq_ok_iff`: the properties are those of the getters and the
  functions those of the other methods, in order.
* `isMutable_iff`: a property is mutable exactly if there is a setter of its name.
* `settings_eq_countP`: how many properties a setter stands for.
* `methods_accounted_iff_paired`: when all methods are accounted for.
-/

namespace Facade

namespace Compiled

namespace Accessor

/-- The accessor of one kind that a method is by its name. -/
def ofNameAs? (name : String) (a : Accessor) : Option (Accessor × List Char) :=
  match Text.afterChars? a.lead.toList name.toList with
  | some rest => if isRest rest then some (a, rest) else none
  | none => none

theorem ofNameAs?_eq_some_iff {name : String} {a b : Accessor} {rest : List Char} :
    ofNameAs? name a = some (b, rest) ↔
      b = a ∧ name = b.lead ++ String.ofList rest ∧ isRest rest = true := by
  have hname : ∀ r, name.toList = a.lead.toList ++ r ↔ name = a.lead ++ String.ofList r := by
    intro r
    rw [← String.toList_inj, String.toList_append, String.toList_ofList]
  rw [ofNameAs?]
  split
  · next r hr =>
      have hr' := (hname r).1 (Text.afterChars?_eq_some_iff.1 hr)
      split
      · next hrest =>
          simp only [Option.some.injEq, Prod.mk.injEq]
          constructor
          · rintro ⟨rfl, rfl⟩
            exact ⟨rfl, hr', hrest⟩
          · rintro ⟨rfl, hb, -⟩
            rw [hr', String.append_right_inj, String.ofList_inj] at hb
            exact ⟨rfl, hb⟩
      · next hrest =>
          simp only [reduceCtorEq, false_iff, not_and]
          rintro rfl hb
          rw [hr', String.append_right_inj, String.ofList_inj] at hb
          exact hb ▸ hrest
  · next hnone =>
      simp only [reduceCtorEq, false_iff, not_and]
      rintro rfl hb
      have hsome := Text.afterChars?_eq_some_iff.2 ((hname rest).2 hb)
      simp [hnone] at hsome

/-- The first letter of a name tells which accessor it can be. -/
theorem lead_injective {a b : Accessor} {rest rest' : List Char}
    (h : a.lead ++ String.ofList rest = b.lead ++ String.ofList rest') :
    a = b := by
  have hhead := congrArg (fun s => s.toList.head?) h
  cases a <;> cases b <;> simp [lead] at hhead ⊢

/-- A method is an accessor by its name exactly if the name is one of the three leads and a rest
that starts with a capital letter. -/
theorem ofName?_eq_some_iff {name : String} {a : Accessor} {rest : List Char} :
    ofName? name = some (a, rest) ↔
      name = a.lead ++ String.ofList rest ∧ isRest rest = true := by
  have hfind : ofName? name = [get, set, is].findSome? (ofNameAs? name) := rfl
  rw [hfind]
  constructor
  · intro h
    obtain ⟨b, -, hb⟩ := List.exists_of_findSome?_eq_some h
    exact (ofNameAs?_eq_some_iff.1 hb).2
  · intro h
    have hown : ofNameAs? name a = some (a, rest) := ofNameAs?_eq_some_iff.2 ⟨rfl, h⟩
    have hmem : a ∈ [get, set, is] := by cases a <;> simp
    cases hfound : [get, set, is].findSome? (ofNameAs? name) with
    | none => simp [List.findSome?_eq_none_iff.1 hfound a hmem] at hown
    | some found =>
        obtain ⟨b, rest'⟩ := found
        obtain ⟨b', -, hb'⟩ := List.exists_of_findSome?_eq_some hfound
        obtain ⟨rfl, hname, -⟩ := ofNameAs?_eq_some_iff.1 hb'
        obtain rfl := lead_injective (h.1.symm.trans hname)
        rw [← hown, hb']

end Accessor

namespace Method

/-- The method is an accessor without parameters whose result fits: any value for `get`, a truth
value for `is`. -/
structure Reads (m : Method) (accessor : Accessor) (rest : List Char) : Prop where
  name : m.name = accessor.lead ++ String.ofList rest
  rest : Accessor.isRest rest = true
  params : m.params = []
  returns : accessor = .get ∧ m.returnClass ≠ "void" ∨
    accessor = .is ∧ m.returnClass = "boolean"

/-- A getter reads a property: it has no parameters, a result, and the name of a getter. -/
theorem getter?_eq_some_iff {m : Method} {property setter : String} :
    m.getter? = some (property, setter) ↔
      ∃ accessor rest, m.Reads accessor rest ∧ property = propertyName m.name accessor rest ∧
        setter = "set" ++ String.ofList rest := by
  rw [getter?]
  constructor
  · intro h
    split at h
    · next accessor rest hname =>
        obtain ⟨hname, hrest⟩ := Accessor.ofName?_eq_some_iff.1 hname
        cases accessor with
        | get =>
            obtain ⟨⟨hreturns, hparams⟩, rfl, rfl⟩ :
                (m.returnClass ≠ "void" ∧ m.params = []) ∧ _ = property ∧ _ = setter := by
              simpa using h
            exact ⟨.get, rest, ⟨hname, hrest, hparams, .inl ⟨rfl, hreturns⟩⟩, rfl, rfl⟩
        | set => simp at h
        | is =>
            obtain ⟨⟨hreturns, hparams⟩, rfl, rfl⟩ :
                (m.returnClass = "boolean" ∧ m.params = []) ∧ _ = property ∧ _ = setter := by
              simpa using h
            exact ⟨.is, rest, ⟨hname, hrest, hparams, .inr ⟨rfl, hreturns⟩⟩, rfl, rfl⟩
    · simp at h
  · rintro ⟨accessor, rest, hreads, rfl, rfl⟩
    rw [Accessor.ofName?_eq_some_iff.2 ⟨hreads.name, hreads.rest⟩]
    dsimp only
    rcases hreads.returns with ⟨rfl, hreturns⟩ | ⟨rfl, hreturns⟩
    · simp [hreads.params, hreturns]
    · simp [hreads.params, hreturns]

/-- A setter is told by its name and its one parameter alone. -/
theorem isSetter_iff {m : Method} :
    m.isSetter = true ↔
      m.params.length = 1 ∧ ∃ rest, m.name = "set" ++ String.ofList rest ∧
        Accessor.isRest rest = true := by
  have hname : (∃ rest, m.name = "set" ++ String.ofList rest ∧ Accessor.isRest rest = true) ↔
      ∃ rest, Accessor.ofName? m.name = some (.set, rest) :=
    exists_congr fun rest => (Accessor.ofName?_eq_some_iff (a := .set)).symm
  rw [hname, isSetter, Bool.and_eq_true, decide_eq_true_eq]
  refine and_congr_right fun _ => ?_
  split
  · next rest h => simp [h]
  · next h => simpa using h

/-- Methods that are not left out by their name. -/
def isKept (m : Method) : Bool :=
  m.name ∉ universalMethods && '$' ∉ m.name.toList

/-- Methods that stand for a property. -/
def isGetter (m : Method) : Bool :=
  m.getter?.isSome

/-- Methods that are no accessors. -/
def isFunction (m : Method) : Bool :=
  !m.isGetter && !m.isSetter

/-- The name of the setter that belongs to a getter. -/
def setterName? (m : Method) : Option String :=
  m.getter?.map Prod.snd

/-- Whether a method is the setter that belongs to a getter, by name and by type. -/
def fits (m g : Method) : Bool :=
  g.setterName? = some m.name &&
    m.params.map (fun p => p.type.memberShape) = [g.returns.memberShape]

/-- No method is a getter and a setter. -/
theorem isGetter_eq_false_of_isSetter {m : Method}
    (h : m.isSetter = true) :
    m.isGetter = false := by
  have hone := (isSetter_iff.1 h).1
  cases hgetter : m.getter? with
  | none => rw [isGetter, hgetter, Option.isSome_none]
  | some names =>
      obtain ⟨accessor, rest, hreads, -⟩ := getter?_eq_some_iff.1 hgetter
      simp [hreads.params] at hone

end Method

namespace Method

variable (methods : List Method)

/-- The methods that have to be accounted for. -/
def keptOf : List Method :=
  (exportable methods).filter isKept

def gettersOf : List Method :=
  (keptOf methods).filter isGetter

def settersOf : List Method :=
  (keptOf methods).filter isSetter

def functionsOf : List Method :=
  (keptOf methods).filter isFunction

end Method

namespace Members

open Method

variable {c : Class} {names : List String} {ms ms' : Members} {m : Method} {methods : List Method}

/-- The property that a getter stands for. -/
structure IsPropertyOf (c : Class) (names : List String) (m : Method)
    (p : Property) : Prop where
  named : ∃ setter, m.getter? = some (p.name, setter) ∧ p.isMutable = decide (setter ∈ names)
  type : m.returns.memberShape = .ok p.type
  isOverride : p.isOverride = c.overrides m

/-- The function that a method stands for. -/
structure IsFunctionOf (c : Class) (m : Method) (f : Function) : Prop where
  name : f.name = m.name
  result : m.returns.memberShape = .ok f.result
  params : List.Forall₂ (fun p p' => p'.name = p.name ∧ p.type.memberShape = .ok p'.type) m.params
    f.params
  isOverride : f.isOverride = c.overrides m

section Runs

theorem parameters_eq_ok_iff {params : List Param} {ps : List Parameter} :
    parameters params = .ok ps ↔
      List.Forall₂ (fun p p' => p'.name = p.name ∧ p.type.memberShape = .ok p'.type) params ps := by
  have hparam : ∀ (p : Param) (p' : Parameter),
      (p.type.memberShape >>= fun type => Except.ok ⟨p.name, type⟩) = .ok p' ↔
        p'.name = p.name ∧ p.type.memberShape = .ok p'.type := by
    intro p p'
    rw [Outcome.bind_eq_ok_iff]
    constructor
    · rintro ⟨type, htype, h⟩
      obtain rfl := Except.ok.inj h
      exact ⟨rfl, htype⟩
    · rintro ⟨hname, htype⟩
      exact ⟨p'.type, htype, by rw [← hname]⟩
  rw [parameters, Outcome.mapM_eq_ok_iff]
  simp only [hparam]

theorem add_of_not_kept
    (h : m.isKept = false) :
    add c names ms m = .ok ms := by
  rw [add, if_pos]
  simpa [Method.isKept, or_iff_not_imp_left] using h

theorem not_left_out
    (h : m.isKept = true) :
    ¬ (m.name ∈ universalMethods ∨ '$' ∈ m.name.toList) := by
  simpa [Method.isKept] using h

/-- A getter adds its property. -/
theorem add_of_getter
    (hkept : m.isKept = true)
    (h : m.isGetter = true) :
    add c names ms m = .ok ms' ↔
      ∃ p, IsPropertyOf c names m p ∧ ms' = ⟨ms.properties ++ [p], ms.functions⟩ := by
  obtain ⟨⟨property, setter⟩, hgetter⟩ := Option.isSome_iff_exists.1 h
  rw [add, if_neg (not_left_out hkept), hgetter]
  dsimp only
  rw [Outcome.bind_eq_ok_iff]
  constructor
  · rintro ⟨type, htype, hms⟩
    obtain rfl := Except.ok.inj hms
    exact ⟨_, ⟨⟨setter, hgetter, rfl⟩, htype, rfl⟩, rfl⟩
  · rintro ⟨p, ⟨⟨setter', hnamed, hmutable⟩, htype, hoverride⟩, rfl⟩
    obtain ⟨rfl, rfl⟩ := Prod.mk.inj (Option.some.inj (hgetter.symm.trans hnamed))
    exact ⟨p.type, htype, by rw [← hmutable, ← hoverride]⟩

/-- A setter adds nothing. -/
theorem add_of_setter
    (hkept : m.isKept = true)
    (h : m.isSetter = true) :
    add c names ms m = .ok ms := by
  have hgetter : m.getter? = none := by
    simpa [Method.isGetter] using Method.isGetter_eq_false_of_isSetter h
  rw [add, if_neg (not_left_out hkept), hgetter]
  exact if_pos h

/-- Any other method adds its function. -/
theorem add_of_function
    (hkept : m.isKept = true)
    (h : m.isFunction = true) :
    add c names ms m = .ok ms' ↔
      ∃ f, IsFunctionOf c m f ∧ ms' = ⟨ms.properties, ms.functions ++ [f]⟩ := by
  obtain ⟨hgetter, hsetter⟩ : m.getter? = none ∧ m.isSetter = false := by
    simpa [Method.isFunction, Method.isGetter] using h
  rw [add, if_neg (not_left_out hkept), hgetter]
  dsimp only
  rw [if_neg (by simp [hsetter]), Outcome.bind_eq_ok_iff]
  simp only [Outcome.bind_eq_ok_iff, parameters_eq_ok_iff]
  constructor
  · rintro ⟨result, hresult, params, hparams, hms⟩
    obtain rfl := Except.ok.inj hms
    exact ⟨_, ⟨rfl, hresult, hparams, rfl⟩, rfl⟩
  · rintro ⟨f, ⟨hname, hresult, hparams, hoverride⟩, rfl⟩
    exact ⟨f.result, hresult, f.params, hparams, by rw [← hname, ← hoverride]⟩

/-- A method adds its property if it is a getter, its function if it is no accessor, and nothing
otherwise. -/
theorem add_eq_ok_iff :
    add c names ms m = .ok ms' ↔
      ∃ ps fs,
        List.Forall₂ (IsPropertyOf c names)
          (([m].filter Method.isKept).filter Method.isGetter) ps ∧
        List.Forall₂ (IsFunctionOf c) (([m].filter Method.isKept).filter Method.isFunction) fs ∧
        ms' = ⟨ms.properties ++ ps, ms.functions ++ fs⟩ := by
  have hsame : ms = ms' ↔ ms' = ⟨ms.properties, ms.functions⟩ := eq_comm
  cases hkept : m.isKept with
  | false => simpa [add_of_not_kept hkept, hkept] using hsame
  | true =>
      cases hsetter : m.isSetter with
      | true =>
          have hgetter := Method.isGetter_eq_false_of_isSetter hsetter
          rw [add_of_setter hkept hsetter]
          simpa [Method.isFunction, hkept, hsetter, hgetter] using hsame
      | false =>
          cases hgetter : m.isGetter with
          | true =>
              rw [add_of_getter hkept hgetter]
              simp [Method.isFunction, hkept, hgetter, List.forall₂_cons_left_iff]
          | false =>
              have hfunction : m.isFunction = true := by
                simp [Method.isFunction, hgetter, hsetter]
              rw [add_of_function hkept hfunction]
              simp [hkept, hgetter, hfunction, List.forall₂_cons_left_iff]

/-- The properties are those of the getters and the functions those of the methods that are no
accessors, in order. -/
theorem foldlM_add_eq_ok_iff {methods : List Method} :
    methods.foldlM (add c names) ms = .ok ms' ↔
      ∃ ps fs,
        List.Forall₂ (IsPropertyOf c names)
          ((methods.filter Method.isKept).filter Method.isGetter) ps ∧
        List.Forall₂ (IsFunctionOf c)
          ((methods.filter Method.isKept).filter Method.isFunction) fs ∧
        ms' = ⟨ms.properties ++ ps, ms.functions ++ fs⟩ := by
  induction methods generalizing ms with
  | nil =>
      have hnil : (pure ms : Answer Members) = .ok ms := rfl
      simp [hnil, eq_comm]
  | cons m rest ih =>
      rw [List.foldlM_cons, Outcome.bind_eq_ok_iff, ← List.singleton_append]
      simp only [List.filter_append, Outcome.forall₂_append_left_iff, add_eq_ok_iff, ih]
      constructor
      · rintro ⟨_, ⟨ps, fs, hps, hfs, rfl⟩, ps', fs', hps', hfs', rfl⟩
        exact ⟨_, _, ⟨ps, ps', hps, hps', rfl⟩, ⟨fs, fs', hfs, hfs', rfl⟩, by simp⟩
      · rintro ⟨_, _, ⟨ps, ps', hps, hps', rfl⟩, ⟨fs, fs', hfs, hfs', rfl⟩, rfl⟩
        exact ⟨_, ⟨ps, fs, hps, hfs, rfl⟩, ps', fs', hps', hfs', by simp⟩

/-- The members of a class are the properties of its getters and the functions of its other methods,
in order. -/
theorem ofMethods_eq_ok_iff :
    ofMethods c methods = .ok ms ↔
      List.Forall₂ (IsPropertyOf c (setterNames (exportable methods))) (gettersOf methods)
          ms.properties ∧
        List.Forall₂ (IsFunctionOf c) (functionsOf methods) ms.functions := by
  rw [ofMethods, foldlM_add_eq_ok_iff]
  constructor
  · rintro ⟨ps, fs, hps, hfs, rfl⟩
    exact ⟨hps, hfs⟩
  · rintro ⟨hps, hfs⟩
    exact ⟨_, _, hps, hfs, rfl⟩

end Runs

section Setters

theorem not_set_of_universal :
    universalMethods.all (fun name => (Text.afterChars? "set".toList name.toList).isNone) := by
  decide

/-- A setter of the name that belongs to a getter is not left out. -/
theorem isKept_of_reads {g : Method} {accessor : Accessor} {rest : List Char}
    (hkept : g.isKept = true)
    (hreads : g.Reads accessor rest)
    (hname : m.name = "set" ++ String.ofList rest) :
    m.isKept = true := by
  have hafter : Text.afterChars? "set".toList m.name.toList = some rest :=
    Text.afterChars?_eq_some_iff.2 (by simp [hname])
  have huniversal : m.name ∉ universalMethods := by
    intro hmem
    have hnone := List.all_eq_true.1 not_set_of_universal m.name hmem
    rw [hafter] at hnone
    simp at hnone
  have hrest : '$' ∉ rest := by
    intro hmem
    refine not_left_out hkept (.inr ?_)
    rw [hreads.name, String.toList_append, String.toList_ofList]
    exact List.mem_append_right _ hmem
  have hsign : '$' ∉ m.name.toList := by simp [hname, hrest]
  simp [Method.isKept, huniversal, hsign]

/-- The names of setters are compared without their types. -/
theorem mem_setterNames_iff {g : Method} {accessor : Accessor} {rest : List Char}
    (hkept : g.isKept = true)
    (hreads : g.Reads accessor rest) :
    "set" ++ String.ofList rest ∈ setterNames (exportable methods) ↔
      ∃ m ∈ settersOf methods, m.name = "set" ++ String.ofList rest := by
  simp only [setterNames, settersOf, keptOf, List.mem_map, List.mem_filter,
    Bool.and_eq_true, decide_eq_true_eq, and_assoc]
  refine exists_congr fun m => and_congr_right fun _ => ?_
  constructor
  · rintro ⟨-, hone, hname⟩
    exact ⟨isKept_of_reads hkept hreads hname,
      Method.isSetter_iff.2 ⟨hone, rest, hname, hreads.rest⟩, hname⟩
  · rintro ⟨-, hsetter, hname⟩
    have hafter : Text.afterChars? "set".toList m.name.toList = some rest :=
      Text.afterChars?_eq_some_iff.2 (by simp [hname])
    exact ⟨by rw [hafter]; rfl, (Method.isSetter_iff.1 hsetter).1, hname⟩

theorem mem_kept_of_mem_getters {g : Method}
    (h : g ∈ gettersOf methods) :
    g ∈ keptOf methods ∧ g.isGetter = true :=
  List.mem_filter.1 h

/-- A property is mutable exactly if there is a setter of its name, of whatever type. -/
theorem isMutable_iff {g : Method} {p : Property}
    (hg : g ∈ gettersOf methods)
    (h : IsPropertyOf c (setterNames (exportable methods)) g p) :
    p.isMutable = true ↔ ∃ m ∈ settersOf methods, g.setterName? = some m.name := by
  obtain ⟨setter, hgetter, hmutable⟩ := h.named
  obtain ⟨accessor, rest, hreads, -, rfl⟩ := Method.getter?_eq_some_iff.1 hgetter
  have hkept : g.isKept = true := (List.mem_filter.1 (mem_kept_of_mem_getters hg).1).2
  rw [hmutable, decide_eq_true_eq, mem_setterNames_iff hkept hreads, Method.setterName?, hgetter]
  simp [eq_comm]

/-- Whether a method is the setter of a property, given with its getter. -/
def isSetterOf (m : Method) (entry : Method × Property) : Bool :=
  entry.2.isMutable && entry.1.setterName? = some m.name &&
    m.params.map (fun p => p.type.memberShape) = [.ok entry.2.type]

/-- The properties with their getters. -/
def entries (methods : List Method) (ms : Members) : List (Method × Property) :=
  (gettersOf methods).zip ms.properties

/-- The number of properties that a method is the setter of. -/
def settings (methods : List Method) (ms : Members) (m : Method) : Nat :=
  (entries methods ms).countP (isSetterOf m)

/-- Whether a setter is one of a property is told by the getter of the property. -/
theorem isSetterOf_eq_fits {g : Method} {p : Property}
    (hm : m ∈ settersOf methods)
    (hg : g ∈ gettersOf methods)
    (h : IsPropertyOf c (setterNames (exportable methods)) g p) :
    isSetterOf m (g, p) = m.fits g := by
  rw [isSetterOf, Method.fits, h.type]
  by_cases hname : g.setterName? = some m.name
  · have hmutable : p.isMutable = true := (isMutable_iff hg h).2 ⟨m, hm, hname⟩
    simp [hmutable]
  · simp [hname]

theorem countP_zip_of_forall₂ {α β : Type} {r : α → β → Prop} {f : α × β → Bool} {g : α → Bool}
    {l : List α} {l' : List β}
    (h : List.Forall₂ r l l')
    (hfg : ∀ a ∈ l, ∀ b, r a b → f (a, b) = g a) :
    (l.zip l').countP f = l.countP g := by
  induction h with
  | nil => rfl
  | cons hab _ ih =>
      obtain ⟨ha, hrest⟩ := List.forall_mem_cons.1 hfg
      rw [List.zip_cons_cons, List.countP_cons, List.countP_cons, ih hrest, ha _ hab]

/-- A setter stands for as many properties as there are getters that it fits. -/
theorem settings_eq_countP
    (h : ofMethods c methods = .ok ms)
    (hm : m ∈ settersOf methods) :
    settings methods ms m = (gettersOf methods).countP m.fits :=
  countP_zip_of_forall₂ (ofMethods_eq_ok_iff.1 h).1 fun _ hg _ hp => isSetterOf_eq_fits hm hg hp

end Setters

/-- Every setter stands for exactly one property, and every mutable property has a setter. -/
structure Accounts (methods : List Method) (ms : Members) : Prop where
  setters : ∀ m ∈ settersOf methods, settings methods ms m = 1
  mutables : ∀ entry ∈ entries methods ms, entry.2.isMutable = true →
    ∃ m ∈ settersOf methods, isSetterOf m entry = true

/-- Every setter belongs to exactly one getter by name and type, and every getter that a setter
belongs to by name has one that belongs to it by type as well. -/
structure Paired (methods : List Method) : Prop where
  setters : ∀ m ∈ settersOf methods, (gettersOf methods).countP m.fits = 1
  getters : ∀ g ∈ gettersOf methods, (∃ m ∈ settersOf methods, g.setterName? = some m.name) →
    ∃ m ∈ settersOf methods, m.fits g = true

theorem forall_zip_iff_of_forall₂ {α β : Type} {r : α → β → Prop} {P : α × β → Prop} {Q : α → Prop}
    {l : List α} {l' : List β}
    (h : List.Forall₂ r l l')
    (hiff : ∀ a ∈ l, ∀ b, r a b → (P (a, b) ↔ Q a)) :
    (∀ entry ∈ l.zip l', P entry) ↔ ∀ a ∈ l, Q a := by
  induction h with
  | nil => simp
  | cons hab _ ih =>
      obtain ⟨ha, hrest⟩ := List.forall_mem_cons.1 hiff
      rw [List.zip_cons_cons, List.forall_mem_cons, List.forall_mem_cons, ha _ hab, ih hrest]

/-- Every mutable property has a setter exactly if every getter that a setter belongs to by name has
one that belongs to it by type as well. -/
theorem mutables_iff
    (h : ofMethods c methods = .ok ms) :
    (∀ entry ∈ entries methods ms, entry.2.isMutable = true →
        ∃ m ∈ settersOf methods, isSetterOf m entry = true) ↔
      ∀ g ∈ gettersOf methods, (∃ m ∈ settersOf methods, g.setterName? = some m.name) →
        ∃ m ∈ settersOf methods, m.fits g = true := by
  refine forall_zip_iff_of_forall₂ (ofMethods_eq_ok_iff.1 h).1 fun g hg p hp => ?_
  rw [isMutable_iff hg hp]
  refine imp_congr_right fun _ => exists_congr fun m => and_congr_right fun hm => ?_
  rw [isSetterOf_eq_fits hm hg hp]

/-- All methods are accounted for exactly if setters and getters are paired. -/
theorem accounts_iff_paired
    (h : ofMethods c methods = .ok ms) :
    Accounts methods ms ↔ Paired methods := by
  have hsetters : (∀ m ∈ settersOf methods, settings methods ms m = 1) ↔
      ∀ m ∈ settersOf methods, (gettersOf methods).countP m.fits = 1 :=
    forall₂_congr fun m hm => by rw [settings_eq_countP h hm]
  exact ⟨fun ha => ⟨hsetters.1 ha.setters, (mutables_iff h).1 ha.mutables⟩,
    fun hp => ⟨hsetters.2 hp.setters, (mutables_iff h).2 hp.getters⟩⟩

section Success

theorem exists_forall₂_iff {α β : Type} {r : α → β → Prop} {l : List α} :
    (∃ l', List.Forall₂ r l l') ↔ ∀ a ∈ l, ∃ b, r a b := by
  induction l with
  | nil => exact ⟨fun _ => List.forall_mem_nil _, fun _ => ⟨[], .nil⟩⟩
  | cons a rest ih =>
      simp only [List.forall₂_cons_left_iff, List.forall_mem_cons, ← ih]
      constructor
      · rintro ⟨_, b, l', hb, hrest, rfl⟩
        exact ⟨⟨b, hb⟩, l', hrest⟩
      · rintro ⟨⟨b, hb⟩, l', hrest⟩
        exact ⟨b :: l', b, l', hb, hrest, rfl⟩

theorem exists_isPropertyOf_iff
    (h : m.isGetter = true) :
    (∃ p, IsPropertyOf c names m p) ↔ ∃ type, m.returns.memberShape = .ok type := by
  obtain ⟨⟨property, setter⟩, hgetter⟩ := Option.isSome_iff_exists.1 h
  constructor
  · rintro ⟨p, hp⟩
    exact ⟨p.type, hp.type⟩
  · rintro ⟨type, htype⟩
    exact ⟨⟨property, type, decide (setter ∈ names), c.overrides m⟩,
      ⟨setter, hgetter, rfl⟩, htype, rfl⟩

/-- A method has a function exactly if its result and all its parameters have shapes. -/
theorem exists_isFunctionOf_iff :
    (∃ f, IsFunctionOf c m f) ↔
      (∃ type, m.returns.memberShape = .ok type) ∧
        ∀ p ∈ m.params, ∃ type, p.type.memberShape = .ok type := by
  have hparams : (∃ ps : List Parameter, List.Forall₂ (fun p p' => p'.name = p.name ∧
      p.type.memberShape = .ok p'.type) m.params ps) ↔
      ∀ p ∈ m.params, ∃ type, p.type.memberShape = .ok type := by
    rw [exists_forall₂_iff]
    refine forall₂_congr fun p _ => ⟨?_, ?_⟩
    · rintro ⟨p', -, htype⟩
      exact ⟨p'.type, htype⟩
    · rintro ⟨type, htype⟩
      exact ⟨⟨p.name, type⟩, rfl, htype⟩
  rw [← hparams]
  constructor
  · rintro ⟨f, hf⟩
    exact ⟨⟨f.result, hf.result⟩, f.params, hf.params⟩
  · rintro ⟨⟨type, htype⟩, ps, hps⟩
    exact ⟨⟨m.name, type, ps, c.overrides m⟩, rfl, htype, hps, rfl⟩

/-- There are members exactly if all types that they show have shapes. -/
theorem exists_ofMethods_iff :
    (∃ ms, ofMethods c methods = .ok ms) ↔
      (∀ g ∈ gettersOf methods, ∃ type, g.returns.memberShape = .ok type) ∧
        ∀ m ∈ functionsOf methods, (∃ type, m.returns.memberShape = .ok type) ∧
          ∀ p ∈ m.params, ∃ type, p.type.memberShape = .ok type := by
  have hgetters : (∃ ps, List.Forall₂ (IsPropertyOf c (setterNames (exportable methods)))
      (gettersOf methods) ps) ↔
      ∀ g ∈ gettersOf methods, ∃ type, g.returns.memberShape = .ok type := by
    rw [exists_forall₂_iff]
    exact forall₂_congr fun g hg => exists_isPropertyOf_iff (mem_kept_of_mem_getters hg).2
  have hfunctions : (∃ fs, List.Forall₂ (IsFunctionOf c) (functionsOf methods) fs) ↔
      ∀ m ∈ functionsOf methods, (∃ type, m.returns.memberShape = .ok type) ∧
        ∀ p ∈ m.params, ∃ type, p.type.memberShape = .ok type := by
    rw [exists_forall₂_iff]
    exact forall₂_congr fun m _ => exists_isFunctionOf_iff
  simp only [ofMethods_eq_ok_iff, ← hgetters, ← hfunctions]
  exact ⟨fun ⟨ms, hps, hfs⟩ => ⟨⟨_, hps⟩, _, hfs⟩, fun ⟨⟨ps, hps⟩, fs, hfs⟩ => ⟨⟨ps, fs⟩, hps, hfs⟩⟩

end Success

/-- The property that a getter stands for; it is mutable if there is a setter of its name. -/
structure Shows (c : Class) (methods : List Method) (g : Method) (p : Property) : Prop where
  reads : ∃ accessor rest, g.Reads accessor rest ∧ p.name = propertyName g.name accessor rest
  type : g.returns.memberShape = .ok p.type
  isOverride : p.isOverride = c.overrides g
  isMutable : p.isMutable = true ↔ ∃ m ∈ settersOf methods, g.setterName? = some m.name

theorem shows_of_isPropertyOf {g : Method} {p : Property}
    (hg : g ∈ gettersOf methods)
    (h : IsPropertyOf c (setterNames (exportable methods)) g p) :
    Shows c methods g p where
  reads := by
    obtain ⟨setter, hgetter, -⟩ := h.named
    obtain ⟨accessor, rest, hreads, hname, -⟩ := Method.getter?_eq_some_iff.1 hgetter
    exact ⟨accessor, rest, hreads, hname⟩
  type := h.type
  isOverride := h.isOverride
  isMutable := isMutable_iff hg h

/-- What is found of the methods of a class among its members. -/
structure Account (c : Class) (methods : List Method) (ms : Members) : Prop where
  /-- The getters are the properties, one by one. -/
  properties : List.Forall₂ (Shows c methods) (gettersOf methods) ms.properties
  /-- The methods that are no accessors are the functions, one by one. -/
  functions : List.Forall₂ (IsFunctionOf c) (functionsOf methods) ms.functions
  /-- A setter stands for one property for each getter that it belongs to by name and type. -/
  settings : ∀ m ∈ settersOf methods, settings methods ms m = (gettersOf methods).countP m.fits
  /-- The setters are accounted for exactly if they are paired with the getters. -/
  accounts : Accounts methods ms ↔ Paired methods

/-- What becomes of the methods that are told of a class. -/
structure MethodsContract (c : Class) (methods : List Method) : Prop where
  /-- Every method is a getter, a setter or none of them. -/
  roles : (gettersOf methods ++ settersOf methods ++ functionsOf methods).Perm (keptOf methods)
  returns : (∃ ms, ofClass c = .ok ms) ↔
    (∀ g ∈ gettersOf methods, ∃ type, g.returns.memberShape = .ok type) ∧
      ∀ m ∈ functionsOf methods, (∃ type, m.returns.memberShape = .ok type) ∧
        ∀ p ∈ m.params, ∃ type, p.type.memberShape = .ok type
  account : ∀ ms, ofClass c = .ok ms → Account c methods ms

/-- What becomes of the methods of a class, for every class. -/
structure AccountContract (c : Class) : Prop where
  told : ∀ methods, c.model.methods = .ok methods → MethodsContract c methods
  /-- If the methods are not told, there are no members. -/
  untold : ∀ e, c.model.methods = .error e → ofClass c = .error e

/-- Every method that is kept has exactly one role. -/
theorem roles_perm_kept (methods : List Method) :
    (methods.filter Method.isGetter ++ methods.filter Method.isSetter ++
      methods.filter Method.isFunction).Perm methods := by
  have hrest : (methods.filter Method.isSetter ++ methods.filter Method.isFunction).Perm
      (methods.filter fun m => !m.isGetter) := by
    have hsetters : (methods.filter fun m => !m.isGetter).filter Method.isSetter =
        methods.filter Method.isSetter := by
      rw [List.filter_filter]
      refine List.filter_congr fun m _ => ?_
      cases hsetter : m.isSetter with
      | false => simp
      | true => simp [Method.isGetter_eq_false_of_isSetter hsetter]
    have hfunctions : ((methods.filter fun m => !m.isGetter).filter fun m => !m.isSetter) =
        methods.filter Method.isFunction := by
      rw [List.filter_filter]
      exact List.filter_congr fun m _ => Bool.and_comm _ _
    rw [← hsetters, ← hfunctions]
    exact List.filter_append_perm _ _
  rw [List.append_assoc]
  exact (hrest.append_left _).trans (List.filter_append_perm _ _)

/-- The members of every class, method by method: getters and functions are all there, and setters
and mutable properties account for each other exactly if they are paired by name and type. -/
theorem methods_accounted_iff_paired (c : Class) :
    AccountContract c where
  told methods htold := by
    have hmembers : ofClass c = ofMethods c methods := by rw [ofClass, htold]; rfl
    refine ⟨roles_perm_kept (keptOf methods), ?_, ?_⟩
    · rw [hmembers]
      exact exists_ofMethods_iff
    · intro ms h
      rw [hmembers] at h
      obtain ⟨hproperties, hfunctions⟩ := ofMethods_eq_ok_iff.1 h
      refine ⟨?_, hfunctions, fun m hm => settings_eq_countP h hm, accounts_iff_paired h⟩
      exact Outcome.forall₂_imp_of_mem hproperties fun g hg p hp => shows_of_isPropertyOf hg hp
  untold e huntold := by
    rw [ofClass, huntold]
    rfl

section Player

theorem mem_keptOf_iff :
    m ∈ keptOf methods ↔ m ∈ methods ∧ m.isExportable = true ∧ m.isKept = true := by
  rw [keptOf, List.mem_filter, exportable, (List.mergeSort_perm _ _).mem_iff, List.mem_filter,
    and_assoc]

def getVolume : Method where
  name := "getVolume"
  declaring := "app.Player"
  text := "public final int app.Player.getVolume()"
  returnClass := "int"
  returns := .named "int"

/-- A setter of another type than its getter. -/
def setVolume : Method where
  name := "setVolume"
  declaring := "app.Player"
  text := "public final void app.Player.setVolume(java.lang.String)"
  params := [⟨"level", "java.lang.String", .named "java.lang.String"⟩]

/-- A setter without a getter. -/
def setListener : Method where
  name := "setListener"
  declaring := "app.Player"
  text := "public final void app.Player.setListener(app.Listener)"
  params := [⟨"listener", "app.Listener", .named "app.Listener"⟩]

def playerMethods : List Method :=
  [getVolume, setVolume, setListener]

def player : Class where
  name := "app.Player"
  model := { package := "app", simpleName := .ok "Player", methods := .ok playerMethods }

theorem roles_of_player :
    getVolume ∈ gettersOf playerMethods ∧ setVolume ∈ settersOf playerMethods ∧
      setListener ∈ settersOf playerMethods := by
  have hroles : (playerMethods.all fun m => m.isExportable && m.isKept) &&
      getVolume.isGetter && setVolume.isSetter && setListener.isSetter := by
    decide
  simp only [playerMethods, List.all_cons, List.all_nil, Bool.and_true, Bool.and_eq_true] at hroles
  obtain ⟨⟨⟨⟨hget, hset, hlistener⟩, hgetter⟩, hsetter⟩, hsetter'⟩ := hroles
  refine ⟨List.mem_filter.2 ⟨mem_keptOf_iff.2 ⟨?_, hget⟩, hgetter⟩,
    List.mem_filter.2 ⟨mem_keptOf_iff.2 ⟨?_, hset⟩, hsetter⟩,
    List.mem_filter.2 ⟨mem_keptOf_iff.2 ⟨?_, hlistener⟩, hsetter'⟩⟩
  · simp [playerMethods]
  · simp [playerMethods]
  · simp [playerMethods]

/-- A setter may be lost, and a property may count as mutable without a setter of its type. -/
theorem exists_unaccounted_methods :
    ∃ c methods ms, c.model.methods = .ok methods ∧ ofClass c = .ok ms ∧
      (∃ m ∈ settersOf methods, settings methods ms m = 0) ∧
      ∃ entry ∈ entries methods ms, entry.2.isMutable = true ∧
        ∀ m ∈ settersOf methods, isSetterOf m entry = false := by
  obtain ⟨hget, hset, hlistener⟩ := roles_of_player
  have hfits : playerMethods.all fun m => !m.fits getVolume && !setListener.fits m := by
    decide
  have hmethod : ∀ m ∈ keptOf playerMethods,
      m.fits getVolume = false ∧ setListener.fits m = false := by
    intro m hm
    simpa using List.all_eq_true.1 hfits m (mem_keptOf_iff.1 hm).1
  have hwhole : ∀ m ∈ playerMethods, m.IsWhole := by
    simp only [playerMethods, List.forall_mem_cons, List.not_mem_nil, false_implies, implies_true,
      and_true]
    exact ⟨⟨by decide, by decide⟩, ⟨by decide, by decide⟩, ⟨by decide, by decide⟩⟩
  obtain ⟨ms, hms⟩ := exists_ofMethods player hwhole
  refine ⟨player, playerMethods, ms, rfl, hms, ⟨setListener, hlistener, ?_⟩, ?_⟩
  · rw [settings_eq_countP hms hlistener, List.countP_eq_zero]
    intro g hg
    simp [(hmethod g (List.mem_filter.1 hg).1).2]
  · have hmutables := mt (mutables_iff hms).1 (fun hall => ?_)
    · simpa using hmutables
    · obtain ⟨m, hm, hfit⟩ := hall getVolume hget ⟨setVolume, hset, by decide⟩
      simp [(hmethod m (List.mem_filter.1 hm).1).1] at hfit

end Player

end Members

end Compiled
end Facade
