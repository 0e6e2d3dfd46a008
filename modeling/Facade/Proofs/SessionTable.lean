import Facade.Mapping.Convert
import Facade.Mapping.Session
import Mathlib.Data.List.Nodup
import Mathlib.Tactic.SplitIfs

/-!
# Look-ups in the table of a session

The rules of a session come in blocks: types that stay as they are, the four built-in conversions,
exceptions, the pattern of function types, declarations of the session.  A look-up by key stops at
the first block that knows the key, so no later block can take a built-in type away.

**Results.**
* `rules_ofSession` and `exists_ofSession_iff`: the table of a session has the rules of the session,
  and it exists exactly when no type has two rules.
* `conversion?_ofSession`: the conversion of a shape, in one equation.
* `lookup_ofSession`: what a look-up can find, and what is then known of the shape.
-/

namespace Facade
namespace Mapping

/-- The built-in types with a rule of their own. -/
def builtinKeys : List Key :=
  identityTypes.map Shape.key ++
    [Shape.long.key, Shape.longArray.key, Shape.array.key, Shape.list.key]

/-- The exceptions of a session. -/
def exceptionKeys (extra : List Shape) : List Key :=
  (Shape.exceptions ++ extra).map Shape.key

section Registration

/-- Rules that are all accepted are appended. -/
theorem Registry.rules_of_addAll
    {rules : List Rule} {g g' : Registry}
    (h : g.addAll rules = (g', .ok ())) :
    g'.table.rules = g.table.rules ++ rules := by
  induction rules generalizing g with
  | nil =>
      simp only [addAll, Prod.mk.injEq] at h
      simp [h.1]
  | cons r rest ih =>
      rw [addAll] at h
      split at h
      · next g₁ hadd =>
          rw [ih h, (add_eq_ok hadd).1, List.append_assoc, List.singleton_append]
      · simp at h

/-- The table of a session has the rules of the session, in order. -/
theorem rules_ofSession
    {exported : List (Shape × String)} {extra : List Shape} {erase : Bool} {T : Table}
    (hT : Table.ofSession exported extra erase = .ok T) :
    T.rules = sessionRules exported extra erase := by
  rw [Table.ofSession] at hT
  split at hT
  · next g hadd =>
      obtain rfl := by simpa using hT
      have := Registry.rules_of_addAll hadd
      simpa [Registry.freeze, Registry.empty] using this
  · simp at hT

/-- A key has no rule exactly if no rule is for that key. -/
theorem Table.findExact?_eq_none_iff
    {t : Table} {key : Key} :
    t.findExact? key = none ↔ key ∉ t.rules.filterMap Rule.key? := by
  simp [findExact?, List.find?_eq_none, List.mem_filterMap]

/-- No two rules accepted are for the same key. -/
theorem Registry.nodup_of_add
    {g g' : Registry} {r : Rule}
    (h : g.add r = .ok g')
    (hnodup : (g.table.rules.filterMap Rule.key?).Nodup) :
    (g'.table.rules.filterMap Rule.key?).Nodup := by
  rw [(add_eq_ok h).1, List.filterMap_append]
  cases hkey : r.key? with
  | none => simpa [hkey] using hnodup
  | some key =>
      have hnew : g.table.findExact? key = none := by
        rw [add, hkey] at h
        split at h
        · simp at h
        · split at h
          · simp at h
          · next hfresh => simpa using hfresh
      have hkeys : [r].filterMap Rule.key? = [key] := by simp [hkey]
      rw [hkeys, List.nodup_append]
      refine ⟨hnodup, List.nodup_singleton key, ?_⟩
      rintro key' hmem _ hkey' rfl
      obtain rfl := List.mem_singleton.1 hkey'
      exact Table.findExact?_eq_none_iff.1 hnew hmem

theorem Registry.nodup_addAll
    {g : Registry} (rules : List Rule)
    (hnodup : (g.table.rules.filterMap Rule.key?).Nodup) :
    ((g.addAll rules).1.table.rules.filterMap Rule.key?).Nodup := by
  induction rules generalizing g with
  | nil => exact hnodup
  | cons r rest ih =>
      rw [addAll]
      split
      · next g₁ hadd => exact ih (nodup_of_add hadd hnodup)
      · exact hnodup

/-- Rules for different keys are all accepted. -/
theorem Registry.addAll_of_nodup
    {rules : List Rule} {g : Registry}
    (hopen : g.frozen = false)
    (hnodup : ((g.table.rules ++ rules).filterMap Rule.key?).Nodup) :
    g.addAll rules = ({ g with table := ⟨g.table.rules ++ rules⟩ }, .ok ()) := by
  induction rules generalizing g with
  | nil => simp [addAll]
  | cons r rest ih =>
      have hfresh : (r.key?.filter fun key => (g.table.findExact? key).isSome) = none := by
        cases hkey : r.key? with
        | none => rfl
        | some key =>
            have hnew : key ∉ g.table.rules.filterMap Rule.key? := by
              rw [List.filterMap_append, List.filterMap_cons, hkey] at hnodup
              exact fun hmem => (List.nodup_append.1 hnodup).2.2 key hmem key (by simp) rfl
            simp [Table.findExact?_eq_none_iff.2 hnew]
      have hadd : g.add r = .ok { g with table := ⟨g.table.rules ++ [r]⟩ } := by
        simp only [add, hopen, Bool.false_eq_true, if_false, hfresh]
      rw [addAll, hadd]
      have hrest := ih (g := { g with table := ⟨g.table.rules ++ [r]⟩ }) hopen
        (by simpa using hnodup)
      simpa using hrest

theorem ofSession_eq_ok
    {exported : List (Shape × String)} {extra : List Shape} {erase : Bool}
    (hnodup : ((sessionRules exported extra erase).filterMap Rule.key?).Nodup) :
    Table.ofSession exported extra erase = .ok ⟨sessionRules exported extra erase⟩ := by
  have hadd := Registry.addAll_of_nodup (g := Registry.empty) rfl (by simpa [Registry.empty])
  rw [Table.ofSession, hadd]
  simp [Registry.freeze, Registry.empty]

theorem nodup_keys_ofSession
    {exported : List (Shape × String)} {extra : List Shape} {erase : Bool} {T : Table}
    (hT : Table.ofSession exported extra erase = .ok T) :
    ((sessionRules exported extra erase).filterMap Rule.key?).Nodup := by
  rw [← rules_ofSession hT]
  rw [Table.ofSession] at hT
  split at hT
  · next g hadd =>
      obtain rfl := by simpa using hT
      have hnodup := Registry.nodup_addAll (sessionRules exported extra erase)
        (g := Registry.empty) List.nodup_nil
      rw [hadd] at hnodup
      exact hnodup
  · simp at hT

end Registration

section Equation

variable (exported : List (Shape × String)) (extra : List Shape) (erase : Bool)

/-- The conversion that the session has for a key, whatever the arguments. -/
def keyConversion? (key : Key) : Option Conversion :=
  if key ∈ identityTypes.map Shape.key then some .identity
  else if key = Shape.long.key then some .long
  else if key = Shape.longArray.key then some .longArray
  else if key = Shape.array.key then some .array
  else if key = Shape.list.key then some .list
  else if key ∈ exceptionKeys extra then some (.exception key)
  else
    (exported.find? fun entry => entry.1.args.isEmpty && entry.1.key == key).map fun entry =>
      .wrapper (wrapperKey entry.1 entry.2 erase)

/-- The conversion that the session has for an instance of a generic declaration. -/
def instanceConversion? (s : Shape) : Option Conversion :=
  (exported.find? fun entry =>
      !entry.1.args.isEmpty && (s.key == entry.1.key && s.args == entry.1.args)).map fun entry =>
    .wrapper (wrapperKey entry.1 entry.2 erase)

/-- The built-in types that are neither kept nor exceptions. -/
def structuralRules : List Rule :=
  [.exact .long .long, .exact .longArray .longArray, .exact .array .array, .exact .list .list]

theorem sessionRules_eq :
    sessionRules exported extra erase =
      identityTypes.map (fun s => Rule.exact s .identity) ++ structuralRules ++
        (Shape.exceptions ++ extra).eraseDups.map (fun s => Rule.exact s (.exception s.key)) ++
        [.patterned .function "kotlin.FunctionN" .function] ++
        exported.map (fun entry => Rule.exported entry.1 entry.2 erase) :=
  rfl

/-- The conversion of the first rule for a key. -/
def firstConversion? (key : Key) (rules : List Rule) : Option Conversion :=
  (rules.find? fun r => r.key? == some key).map Rule.conversion

theorem firstConversion?_append (key : Key) (rules rules' : List Rule) :
    firstConversion? key (rules ++ rules') =
      (firstConversion? key rules).or (firstConversion? key rules') := by
  rw [firstConversion?, List.find?_append, Option.map_or]
  rfl

theorem firstConversion?_exact
    (key : Key) (conversion : Key → Conversion) (shapes : List Shape) :
    firstConversion? key (shapes.map fun s => Rule.exact s (conversion s.key)) =
      if key ∈ shapes.map Shape.key then some (conversion key) else none := by
  induction shapes with
  | nil => rfl
  | cons s rest ih =>
      by_cases hkey : s.key = key
      · simp [firstConversion?, Rule.exact, Rule.key?, hkey]
      · have hne : ¬ key = s.key := fun h => hkey h.symm
        rw [firstConversion?] at ih ⊢
        simpa [Rule.exact, Rule.key?, hkey, hne] using ih

theorem firstConversion?_exported (key : Key) :
    firstConversion? key (exported.map fun entry => Rule.exported entry.1 entry.2 erase) =
      (exported.find? fun entry => entry.1.args.isEmpty && entry.1.key == key).map fun entry =>
        .wrapper (wrapperKey entry.1 entry.2 erase) := by
  induction exported with
  | nil => rfl
  | cons entry rest ih =>
      rw [firstConversion?] at ih ⊢
      cases hargs : entry.1.args with
      | nil =>
          by_cases hkey : entry.1.key = key
          · simp [Rule.exported, Rule.exact, Rule.key?, hargs, hkey]
          · simpa [Rule.exported, Rule.exact, Rule.key?, hargs, hkey] using ih
      | cons a as => simpa [Rule.exported, Rule.patterned, Rule.key?, hargs] using ih

/-- The first rule for a key, among the built-in types, the exceptions and the declarations. -/
theorem firstConversion?_sessionRules (key : Key) :
    firstConversion? key (sessionRules exported extra erase) =
      keyConversion? exported extra erase key := by
  have hidentity := firstConversion?_exact key (fun _ => .identity) identityTypes
  have hexceptions := firstConversion?_exact key Conversion.exception
    (Shape.exceptions ++ extra).eraseDups
  have hmem : key ∈ (Shape.exceptions ++ extra).eraseDups.map Shape.key ↔
      key ∈ exceptionKeys extra := by
    simp only [exceptionKeys, List.mem_map, List.mem_eraseDups]
  have hfunction : firstConversion? key
      [Rule.patterned .function "kotlin.FunctionN" .function] = none := rfl
  rw [sessionRules_eq, firstConversion?_append, firstConversion?_append, firstConversion?_append,
    firstConversion?_append, hidentity, hexceptions, hfunction, firstConversion?_exported,
    keyConversion?]
  by_cases h₁ : key ∈ identityTypes.map Shape.key
  · simp only [h₁, if_true, Option.some_or]
  by_cases h₂ : key = Shape.long.key
  · subst h₂
    rfl
  by_cases h₃ : key = Shape.longArray.key
  · subst h₃
    rfl
  by_cases h₄ : key = Shape.array.key
  · subst h₄
    rfl
  by_cases h₅ : key = Shape.list.key
  · subst h₅
    rfl
  have hfour : firstConversion? key structuralRules = none := by
    simp [firstConversion?, structuralRules, Rule.exact, Rule.key?, Ne.symm h₂, Ne.symm h₃,
      Ne.symm h₄, Ne.symm h₅]
  simp only [h₁, h₂, h₃, h₄, h₅, hmem, hfour, if_false, Option.none_or]
  split
  · rfl
  · rfl

theorem firstHolding?_exact
    (s : Shape) (conversion : Shape → Conversion) (shapes : List Shape) (rest : List Rule) :
    Table.firstHolding? s (shapes.map (fun x => Rule.exact x (conversion x)) ++ rest) =
      Table.firstHolding? s rest := by
  induction shapes with
  | nil => rfl
  | cons x shapes ih => simpa [Table.firstHolding?, Rule.exact, Rule.holds] using ih

theorem firstHolding?_exported (s : Shape) :
    (Table.firstHolding? s (exported.map fun entry => Rule.exported entry.1 entry.2 erase)).map
        (Option.map Rule.conversion) =
      .ok (instanceConversion? exported erase s) := by
  induction exported with
  | nil => rfl
  | cons entry rest ih =>
      rw [instanceConversion?] at ih ⊢
      cases hargs : entry.1.args with
      | nil =>
          simpa [Table.firstHolding?, Rule.exported, Rule.exact, Rule.holds, hargs] using ih
      | cons a as =>
          by_cases hsame : s.key = entry.1.key ∧ s.args = a :: as
          · simp [Table.firstHolding?, Rule.exported, Rule.patterned, Rule.holds, Pattern.holds,
              hargs, hsame, Except.map]
          · have hholds : (s.key == entry.1.key && s.args == a :: as) = false := by
              simpa using not_and.1 hsame
            simpa [Table.firstHolding?, Rule.exported, Rule.patterned, Rule.holds, Pattern.holds,
              hargs, hholds] using ih

/-- The patterns of a session are function types and then the instantiations of generic types. -/
theorem firstHolding?_sessionRules (s : Shape) :
    (Table.firstHolding? s (sessionRules exported extra erase)).map (Option.map Rule.conversion) =
      s.checkFunction.map fun isFunction =>
        if isFunction then some .function else instanceConversion? exported erase s := by
  have hstructural : ∀ rest, Table.firstHolding? s (structuralRules ++ rest) =
      Table.firstHolding? s rest := by
    intro rest
    rfl
  rw [sessionRules_eq, List.append_assoc, List.append_assoc, List.append_assoc,
    firstHolding?_exact, hstructural, firstHolding?_exact, List.singleton_append,
    Table.firstHolding?]
  have hholds : (Rule.patterned .function "kotlin.FunctionN" .function).holds s =
      s.checkFunction := rfl
  rw [hholds]
  cases hcheck : s.checkFunction with
  | error o => rfl
  | ok isFunction =>
      cases isFunction with
      | false => exact firstHolding?_exported exported erase s
      | true => rfl

end Equation

section Keys

variable {exported : List (Shape × String)} {extra : List Shape}

/-- The declarations of the session that are found by their key alone. -/
def declaredKeys (exported : List (Shape × String)) : List Key :=
  ((exported.filter fun entry => entry.1.args.isEmpty).map Prod.fst).map Shape.key

/-- The declared keys are those of exported types without arguments. -/
theorem mem_declaredKeys {key : Key} :
    key ∈ declaredKeys exported ↔
      ∃ native name, (native, name) ∈ exported ∧ native.args = [] ∧ native.key = key := by
  simp only [declaredKeys, List.mem_map, List.mem_filter, List.isEmpty_iff]
  constructor
  · rintro ⟨_, ⟨⟨native, name⟩, ⟨hmem, hargs⟩, rfl⟩, rfl⟩
    exact ⟨native, name, hmem, hargs, rfl⟩
  · rintro ⟨native, name, hmem, hargs, rfl⟩
    exact ⟨native, ⟨(native, name), ⟨hmem, hargs⟩, rfl⟩, rfl⟩

theorem keys_exact (shapes : List Shape) (conversion : Shape → Conversion) :
    (shapes.map fun s => Rule.exact s (conversion s)).filterMap Rule.key? =
      shapes.map Shape.key := by
  rw [List.filterMap_map, ← List.filterMap_eq_map]
  rfl

theorem keys_exported (exported : List (Shape × String)) (erase : Bool) :
    (exported.map fun entry => Rule.exported entry.1 entry.2 erase).filterMap Rule.key? =
      declaredKeys exported := by
  induction exported with
  | nil => rfl
  | cons entry rest ih =>
      rw [declaredKeys] at ih ⊢
      cases hargs : entry.1.args with
      | nil =>
          have hkey : (Rule.exported entry.1 entry.2 erase).key? = some entry.1.key := by
            simp [Rule.exported, Rule.exact, Rule.key?, hargs]
          rw [List.map_cons, List.filterMap_cons_some hkey, ih]
          simp [hargs]
      | cons a as =>
          have hkey : (Rule.exported entry.1 entry.2 erase).key? = none := by
            simp [Rule.exported, Rule.patterned, Rule.key?, hargs]
          rw [List.map_cons, List.filterMap_cons_none hkey, ih]
          simp [hargs]

/-- The keys that a session has rules for. -/
theorem keys_sessionRules (exported : List (Shape × String)) (extra : List Shape) (erase : Bool) :
    (sessionRules exported extra erase).filterMap Rule.key? =
      builtinKeys ++ (Shape.exceptions ++ extra).eraseDups.map Shape.key ++
        declaredKeys exported := by
  have hidentity := keys_exact identityTypes fun _ => .identity
  have hstructural : structuralRules.filterMap Rule.key? =
      [Shape.long.key, Shape.longArray.key, Shape.array.key, Shape.list.key] := rfl
  have hexceptions := keys_exact (Shape.exceptions ++ extra).eraseDups fun s => .exception s.key
  have hfunction : [Rule.patterned .function "kotlin.FunctionN" .function].filterMap Rule.key? =
      [] := rfl
  rw [sessionRules_eq, List.filterMap_append, List.filterMap_append, List.filterMap_append,
    List.filterMap_append, hidentity, hstructural, hexceptions, hfunction, keys_exported,
    List.append_nil, builtinKeys]

theorem keyConversion?_eq_none_iff {erase : Bool} {key : Key} :
    keyConversion? exported extra erase key = none ↔
      key ∉ builtinKeys ∧ key ∉ exceptionKeys extra ∧ key ∉ declaredKeys exported := by
  have hdeclared : ((exported.find? fun entry => entry.1.args.isEmpty && entry.1.key == key).map
      fun entry => Conversion.wrapper (wrapperKey entry.1 entry.2 erase)) = none ↔
        key ∉ declaredKeys exported := by
    rw [Option.map_eq_none_iff, List.find?_eq_none, mem_declaredKeys]
    simp
  rw [keyConversion?]
  constructor
  · intro h
    split_ifs at h with h₁ h₂ h₃ h₄ h₅ h₆
    exact ⟨by simp [builtinKeys, List.mem_append, h₁, h₂, h₃, h₄, h₅], h₆, hdeclared.1 h⟩
  · rintro ⟨hbuiltin, hexception, hnew⟩
    simp only [builtinKeys, List.mem_append, List.mem_cons, List.not_mem_nil, or_false,
      not_or] at hbuiltin
    obtain ⟨h₁, h₂, h₃, h₄, h₅⟩ := hbuiltin
    rw [if_neg h₁, if_neg h₂, if_neg h₃, if_neg h₄, if_neg h₅, if_neg hexception]
    exact hdeclared.2 hnew

/-- No type has two rules. -/
structure Apart (exported : List (Shape × String)) (extra : List Shape) : Prop where
  exceptions : ∀ s ∈ Shape.exceptions ++ extra, ∀ t ∈ Shape.exceptions ++ extra,
    s.key = t.key → s = t
  builtin : ∀ key ∈ exceptionKeys extra, key ∉ builtinKeys
  nodup : (declaredKeys exported).Nodup
  declared : ∀ key ∈ declaredKeys exported, key ∉ builtinKeys ∧ key ∉ exceptionKeys extra

theorem nodup_eraseDups {α : Type} [DecidableEq α] (l : List α) :
    l.eraseDups.Nodup := by
  induction hlength : l.length using Nat.strongRecOn generalizing l with
  | ind n ih =>
      cases l with
      | nil => simp
      | cons a rest =>
          rw [List.eraseDups_cons, List.nodup_cons]
          constructor
          · simp [List.mem_eraseDups]
          · refine ih _ ?_ _ rfl
            have := List.length_filter_le (fun b => !b == a) rest
            simp only [List.length_cons] at hlength
            omega

/-- The types of a session are apart exactly if no two rules are for the same key. -/
theorem apart_iff_nodup (erase : Bool) :
    Apart exported extra ↔ ((sessionRules exported extra erase).filterMap Rule.key?).Nodup := by
  have hmem : ∀ key, key ∈ (Shape.exceptions ++ extra).eraseDups.map Shape.key ↔
      key ∈ exceptionKeys extra := by
    intro key
    simp only [exceptionKeys, List.mem_map, List.mem_eraseDups]
  have hbuiltin : builtinKeys.Nodup := by decide
  rw [keys_sessionRules, List.nodup_append, List.nodup_append]
  constructor
  · intro h
    refine ⟨⟨hbuiltin, ?_, ?_⟩, h.nodup, ?_⟩
    · refine List.Nodup.map_on ?_ (nodup_eraseDups _)
      intro s hs t ht
      exact h.exceptions s (List.mem_eraseDups.1 hs) t (List.mem_eraseDups.1 ht)
    · rintro key hkey _ hkey' rfl
      exact h.builtin key ((hmem key).1 hkey') hkey
    · rintro key hkey _ hkey' rfl
      obtain ⟨hnew, hnew'⟩ := h.declared key hkey'
      rcases List.mem_append.1 hkey with hkey | hkey
      · exact hnew hkey
      · exact hnew' ((hmem key).1 hkey)
  · rintro ⟨⟨-, hexceptions, hapart⟩, hnodup, hdeclared⟩
    constructor
    case exceptions =>
      intro s hs t ht hkey
      exact List.inj_on_of_nodup_map hexceptions (List.mem_eraseDups.2 hs)
        (List.mem_eraseDups.2 ht) hkey
    case builtin =>
      intro key hkey hkey'
      exact hapart key hkey' key ((hmem key).2 hkey) rfl
    case nodup => exact hnodup
    case declared =>
      intro key hkey
      constructor
      · intro hkey'
        exact hdeclared key (List.mem_append_left _ hkey') key hkey rfl
      · intro hkey'
        exact hdeclared key (List.mem_append_right _ ((hmem key).2 hkey')) key hkey rfl

/-- A session has a table exactly when no type has two rules. -/
theorem exists_ofSession_iff {erase : Bool} :
    (∃ T, Table.ofSession exported extra erase = .ok T) ↔ Apart exported extra := by
  rw [apart_iff_nodup erase]
  constructor
  · rintro ⟨T, hT⟩
    exact nodup_keys_ofSession hT
  · intro h
    exact ⟨_, ofSession_eq_ok h⟩

end Keys

variable {exported : List (Shape × String)} {extra : List Shape} {erase : Bool} {T : Table}

/-- A table finds the rule for the key, and otherwise the function types or the instantiations. -/
theorem conversion?_ofSession
    (hT : Table.ofSession exported extra erase = .ok T) (s : Shape) :
    T.conversion? s =
      match keyConversion? exported extra erase s.key with
      | some c => .ok (some c)
      | none => s.checkFunction.map fun isFunction =>
          if isFunction then some .function else instanceConversion? exported erase s := by
  have hrules := rules_ofSession hT
  rw [← firstConversion?_sessionRules, ← firstHolding?_sessionRules exported extra, ← hrules,
    firstConversion?, Table.conversion?, Table.find?, Table.findExact?]
  cases T.rules.find? fun r => r.key? == some s.key with
  | none => rfl
  | some r => rfl

/-- What a look-up in the table of a session finds for a shape. -/
inductive Lookup (exported : List (Shape × String)) (extra : List Shape) (erase : Bool)
    (s : Shape) : Option Conversion → Prop
  | identity
      (hkey : s.key ∈ identityTypes.map Shape.key) :
      Lookup exported extra erase s (some .identity)
  | long
      (hkey : s.key = Shape.long.key) :
      Lookup exported extra erase s (some .long)
  | longArray
      (hkey : s.key = Shape.longArray.key) :
      Lookup exported extra erase s (some .longArray)
  | array
      (hkey : s.key = Shape.array.key) :
      Lookup exported extra erase s (some .array)
  | list
      (hkey : s.key = Shape.list.key) :
      Lookup exported extra erase s (some .list)
  | exception
      (hkey : s.key ∈ exceptionKeys extra)
      (hnew : s.key ∉ builtinKeys) :
      Lookup exported extra erase s (some (.exception s.key))
  | declared {native : Shape} {name : String}
      (hmem : (native, name) ∈ exported)
      (hargs : native.args = [])
      (hkey : s.key = native.key)
      (hnew : s.key ∉ builtinKeys) :
      Lookup exported extra erase s (some (.wrapper (wrapperKey native name erase)))
  | function
      (hfunction : s.isFunction = true)
      (hread : s.overlong? = none) :
      Lookup exported extra erase s (some .function)
  | instantiated {native : Shape} {name : String}
      (hmem : (native, name) ∈ exported)
      (hkey : s.key = native.key)
      (hargs : s.args = native.args)
      (hnew : s.key ∉ builtinKeys)
      (hfunction : s.isFunction = false) :
      Lookup exported extra erase s (some (.wrapper (wrapperKey native name erase)))
  | unknown
      (hnew : s.key ∉ builtinKeys)
      (hfunction : s.isFunction = false) :
      Lookup exported extra erase s none

theorem lookup_of_keyConversion?
    {s : Shape} {c : Conversion}
    (h : keyConversion? exported extra erase s.key = some c) :
    Lookup exported extra erase s (some c) := by
  rw [keyConversion?] at h
  split_ifs at h with h₁ h₂ h₃ h₄ h₅ h₆
  · obtain rfl := by simpa using h
    exact .identity h₁
  · obtain rfl := by simpa using h
    exact .long h₂
  · obtain rfl := by simpa using h
    exact .longArray h₃
  · obtain rfl := by simpa using h
    exact .array h₄
  · obtain rfl := by simpa using h
    exact .list h₅
  · obtain rfl := by simpa using h
    exact .exception h₆ (by simp [builtinKeys, List.mem_append, h₁, h₂, h₃, h₄, h₅])
  · obtain ⟨⟨native, name⟩, hfind, rfl⟩ := Option.map_eq_some_iff.1 h
    have hholds := List.find?_some hfind
    rw [Bool.and_eq_true, List.isEmpty_iff, beq_iff_eq] at hholds
    exact .declared (List.mem_of_find?_eq_some hfind) hholds.1 hholds.2.symm
      (by simp [builtinKeys, List.mem_append, h₁, h₂, h₃, h₄, h₅])

/-- Every look-up of a session is one of the kinds that `Lookup` lists. -/
theorem lookup_ofSession
    (hT : Table.ofSession exported extra erase = .ok T)
    {s : Shape} {c : Option Conversion}
    (h : T.conversion? s = .ok c) :
    Lookup exported extra erase s c := by
  rw [conversion?_ofSession hT] at h
  cases hkey : keyConversion? exported extra erase s.key with
  | some c' =>
      rw [hkey] at h
      obtain rfl := by simpa using h
      exact lookup_of_keyConversion? hkey
  | none =>
      have hnew := (keyConversion?_eq_none_iff.1 hkey).1
      rw [hkey] at h
      cases hcheck : s.checkFunction with
      | error o => simp [hcheck, Except.map] at h
      | ok isFunction =>
          obtain ⟨hread, hfunction⟩ := Shape.checkFunction_eq_ok_iff.1 hcheck
          cases isFunction with
          | true =>
              obtain rfl : some .function = c := by simpa [hcheck, Except.map] using h
              exact .function hfunction hread
          | false =>
              obtain rfl : instanceConversion? exported erase s = c := by
                simpa [hcheck, Except.map] using h
              cases hinstance : instanceConversion? exported erase s with
              | none => exact .unknown hnew hfunction
              | some c' =>
                  obtain ⟨⟨native, name⟩, hfind, rfl⟩ := Option.map_eq_some_iff.1 hinstance
                  have hholds := List.find?_some hfind
                  simp only [Bool.and_eq_true, beq_iff_eq] at hholds
                  exact .instantiated (List.mem_of_find?_eq_some hfind) hholds.2.1 hholds.2.2 hnew
                    hfunction

end Mapping
end Facade
