import Facade.Proofs.Plan
import Facade.Proofs.Outcome

/-!
# Shown types are exportable at every depth

A shown type is meant for JavaScript, so nothing inside it may need a conversion any more.  The
built-in conversions show arrays, doubles and errors, and a session shows its wrappers.  As long as
none of these is exported by the session under the same key, a second look at a shown type, or at
any part of it, changes nothing.

**Input.**  A shape whose built-in types without type parameters carry no type arguments, and the
table of a session.

**Results.**
* `stays_of_exported`: every part of a shown type is shown as it is.
* `exportable_of_stays`: what is shown as it is needs no conversion.
* `shown_parts_are_exportable`: so every part of a shown type is exportable.
-/

namespace Facade
namespace Mapping

variable {exported : List (Shape × String)} {extra : List Shape} {erase : Bool} {T : Table}

/-- No wrapper of the session is an exception, or a declaration that is found by its key. -/
def WrappersApart (exported : List (Shape × String)) (extra : List Shape) (erase : Bool) : Prop :=
  ∀ entry ∈ exported, wrapperKey entry.1 entry.2 erase ∉ exceptionKeys extra ∧
    wrapperKey entry.1 entry.2 erase ∉ declaredKeys exported

/-- A type that is kept as it is by its key has no type arguments. -/
def IsBare (u : Shape) : Prop :=
  u.key ∈ identityTypes.map Shape.key → u.args = []

instance : Decidable (WrappersApart exported extra erase) :=
  inferInstanceAs (Decidable (∀ entry ∈ exported, _ ∧ _))

instance (u : Shape) : Decidable (IsBare u) :=
  inferInstanceAs (Decidable (_ → _))

/-- A type that needs no conversion. -/
structure Exportable (exported : List (Shape × String)) (extra : List Shape) (T : Table)
    (u : Shape) : Prop where
  fixed : T.exported u = .ok u
  builtin : u.key ∉ [Shape.long.key, Shape.longArray.key, Shape.list.key]
  exception : u.key ∈ exceptionKeys extra → u.key = Shape.error.key
  declared : u.key ∉ declaredKeys exported
  /-- An instance that a session exports goes to its wrapper, unless a built-in conversion comes
  first. -/
  instantiated : ∀ native name, (native, name) ∈ exported → u.key = native.key →
    u.args = native.args → u.key = Shape.array.key ∨ u.isFunction = true

section Lookups

/-- No key is registered for function types. -/
theorem keyConversion?_ne_function (key : Key) :
    keyConversion? exported extra erase key ≠ some .function := by
  rw [keyConversion?]
  split_ifs <;> simp

theorem keyConversion?_of_conversion? {s : Shape} {c : Option Conversion}
    (hT : Table.ofSession exported extra erase = .ok T)
    (hc : T.conversion? s = .ok c)
    (h : c = none ∨ c = some .function) :
    keyConversion? exported extra erase s.key = none := by
  rw [conversion?_ofSession hT] at hc
  cases hkey : keyConversion? exported extra erase s.key with
  | none => rfl
  | some c' =>
      rw [hkey] at hc
      obtain rfl := Except.ok.inj hc
      rcases h with h | h
      · simp at h
      · obtain rfl := Option.some.inj h
        exact absurd hkey (keyConversion?_ne_function s.key)

/-- A type is converted as a function exactly if it is a function type that nothing else is
registered for. -/
theorem conversion?_eq_function_iff {s : Shape}
    (hT : Table.ofSession exported extra erase = .ok T) :
    T.conversion? s = .ok (some .function) ↔
      keyConversion? exported extra erase s.key = none ∧ s.overlong? = none ∧
        s.isFunction = true := by
  constructor
  · intro hc
    have hkey := keyConversion?_of_conversion? hT hc (.inr rfl)
    cases lookup_ofSession hT hc with
    | function hfunction hread => exact ⟨hkey, hread, hfunction⟩
  · rintro ⟨hkey, hread, hfunction⟩
    rw [conversion?_ofSession hT, hkey, Shape.checkFunction_eq_ok_iff.2 ⟨hread, hfunction⟩]
    rfl

theorem instanceConversion?_of_conversion? {s : Shape}
    (hT : Table.ofSession exported extra erase = .ok T)
    (hc : T.conversion? s = .ok none) :
    instanceConversion? exported erase s = none := by
  have hkey := keyConversion?_of_conversion? hT hc (.inl rfl)
  rw [conversion?_ofSession hT, hkey] at hc
  cases hcheck : s.checkFunction with
  | error o => simp [hcheck, Except.map] at hc
  | ok isFunction =>
      cases isFunction with
      | true => simp [hcheck, Except.map] at hc
      | false => simpa [hcheck, Except.map] using hc

end Lookups

section Fixed

/-- A type that JavaScript knows is shown as it is. -/
theorem exported_of_identity {u : Shape}
    (hT : Table.ofSession exported extra erase = .ok T)
    (h : u.key ∈ identityTypes.map Shape.key) :
    T.exported u = .ok u := by
  have hkey : keyConversion? exported extra erase u.key = some .identity := by
    rw [keyConversion?, if_pos h]
  rw [Table.exported_eq, conversion?_ofSession hT, hkey]

/-- A type without arguments that has no rule is left as it is. -/
theorem exported_of_unregistered {u : Shape}
    (hT : Table.ofSession exported extra erase = .ok T)
    (hkey : keyConversion? exported extra erase u.key = none)
    (hargs : u.args = [])
    (hread : u.overlong? = none) :
    T.exported u = .ok u := by
  have hcheck : u.checkFunction = .ok false :=
    Shape.checkFunction_eq_ok_iff.2 ⟨hread, isFunction_of_args_nil hargs⟩
  have hinstance : instanceConversion? exported erase u = none := by
    rw [instanceConversion?, Option.map_eq_none_iff, List.find?_eq_none]
    intro entry _ hholds
    simp only [hargs, Bool.and_eq_true, Bool.not_eq_true', List.isEmpty_eq_false_iff,
      beq_iff_eq] at hholds
    exact hholds.1 hholds.2.2.symm
  have hc : T.conversion? u = .ok none := by
    rw [conversion?_ofSession hT, hkey, hcheck]
    simp [Except.map, hinstance]
  rw [Table.exported_eq, hc, hargs]
  rfl

theorem exported_arrayOf {a : Shape} (nullable : Bool)
    (hT : Table.ofSession exported extra erase = .ok T)
    (ha : T.exported a = .ok a) :
    T.exported (.arrayOf a nullable) = .ok (.arrayOf a nullable) := by
  have hc : T.conversion? (.arrayOf a nullable) = .ok (some .array) := by
    rw [conversion?_ofSession hT]
    rfl
  have hfirst : T.exportedFirst (Shape.arrayOf a nullable).key (Shape.arrayOf a nullable).args =
      .ok a := ha
  rw [Table.exported_eq, hc]
  simp only [hfirst]
  rfl

theorem exported_error (nullable : Bool)
    (hT : Table.ofSession exported extra erase = .ok T)
    (herror : Shape.error.key ∉ declaredKeys exported) :
    T.exported (Shape.error.withNullable nullable) = .ok (Shape.error.withNullable nullable) := by
  have hbuiltin : Shape.error.key ∉ builtinKeys := by decide
  by_cases hexception : Shape.error.key ∈ exceptionKeys extra
  · have hkey : keyConversion? exported extra erase Shape.error.key =
        some (.exception Shape.error.key) := by
      rw [keyConversion?, if_neg (by decide), if_neg (by decide), if_neg (by decide),
        if_neg (by decide), if_neg (by decide), if_pos hexception]
    rw [Table.exported_eq, conversion?_ofSession hT, Shape.key_withNullable, hkey]
    rfl
  · refine exported_of_unregistered hT ?_ rfl ?_
    · exact keyConversion?_eq_none_iff.2 ⟨hbuiltin, hexception, herror⟩
    · decide +revert

/-- A wrapper is shown as it is, if nothing is registered for it. -/
theorem exported_wrapper {native : Shape} {name : String} (nullable : Bool)
    (hT : Table.ofSession exported extra erase = .ok T)
    (hwrappers : WrappersApart exported extra erase)
    (hmem : (native, name) ∈ exported) :
    T.exported ((Shape.ofKey (wrapperKey native name erase)).withNullable nullable) =
      .ok ((Shape.ofKey (wrapperKey native name erase)).withNullable nullable) := by
  obtain ⟨hexception, hdeclared⟩ := hwrappers _ hmem
  refine exported_of_unregistered hT ?_ rfl (overlong?_wrapperKey native name erase nullable)
  exact keyConversion?_eq_none_iff.2
    ⟨wrapperKey_not_mem_builtinKeys native name erase, hexception, hdeclared⟩

/-- A bare type that is shown as it is. -/
structure Stays (T : Table) (u : Shape) : Prop where
  fixed : T.exported u = .ok u
  bare : IsBare u

/-- Every part of what a type is shown as stays. -/
def ShowsStable (T : Table) (s : Shape) : Prop :=
  ∀ s', T.exported s = .ok s' → ∀ u ∈ s'.parts, Stays T u

theorem stays_of_args_nil {t : Shape}
    (hargs : t.args = [])
    (ht : T.exported t = .ok t) :
    ∀ u ∈ t.parts, Stays T u :=
  forall_mem_parts ⟨ht, fun _ => hargs⟩ (by simp [hargs])

theorem stays_double
    (hT : Table.ofSession exported extra erase = .ok T) (nullable : Bool) :
    ∀ u ∈ (Shape.double.withNullable nullable).parts, Stays T u :=
  stays_of_args_nil rfl (exported_of_identity hT (by simp [identityTypes]))

/-- If all parts of a type stay as they are, so do those of its arrays. -/
theorem stays_arrayOf {a : Shape} (nullable : Bool)
    (hT : Table.ofSession exported extra erase = .ok T)
    (ha : ∀ u ∈ a.parts, Stays T u) :
    ∀ u ∈ (Shape.arrayOf a nullable).parts, Stays T u := by
  have harray : Shape.array.key ∉ identityTypes.map Shape.key := by decide
  refine forall_mem_parts ⟨?_, fun hkey => absurd hkey harray⟩ ?_
  · exact exported_arrayOf nullable hT (ha a a.self_mem_parts).fixed
  · intro b hb
    obtain rfl := List.mem_singleton.1 hb
    exact ha

theorem stays_of_exportedFirst {s a : Shape} {collection : Key}
    (hargs : ∀ b ∈ s.args, ShowsStable T b)
    (h : T.exportedFirst collection s.args = .ok a) :
    ∀ u ∈ a.parts, Stays T u := by
  cases heq : s.args with
  | nil => simp [heq, Table.exportedFirst] at h
  | cons b rest =>
      rw [heq, Table.exportedFirst] at h
      exact hargs b (by simp [heq]) a h

/-- The arguments of a shown function type are shown as they are, so that the function type is. -/
theorem exported_function {s : Shape} {args' : List Shape}
    (hT : Table.ofSession exported extra erase = .ok T)
    (hc : T.conversion? s = .ok (some .function))
    (hlength : s.args.length = args'.length)
    (hargs : ∀ a ∈ args', T.exported a = .ok a) :
    T.exported (s.withArgs args') = .ok (s.withArgs args') := by
  obtain ⟨hkey, hread, hfunction⟩ := (conversion?_eq_function_iff hT).1 hc
  have hc' : T.conversion? (s.withArgs args') = .ok (some .function) := by
    refine (conversion?_eq_function_iff hT).2 ⟨hkey, hread, ?_⟩
    rw [isFunction_withArgs hlength.symm, hfunction]
  have hall : T.exportedAll args' = .ok args' := by
    rw [Table.exportedAll_eq_mapM, Outcome.mapM_eq_ok_iff, List.forall₂_same]
    exact hargs
  rw [Table.exported_eq, hc']
  simp only [Shape.withArgs, hall]
  rfl

/-- Arguments are only forbidden to built-in types. -/
theorem isBare_of_not_mem_builtinKeys {u : Shape}
    (h : u.key ∉ builtinKeys) :
    IsBare u :=
  fun hkey => absurd (List.mem_append_left _ hkey) h

/-- What is shown for a type is shown as itself, part by part, by induction over the type. -/
theorem stays_of_exported
    (hT : Table.ofSession exported extra erase = .ok T)
    (hwrappers : WrappersApart exported extra erase)
    (herror : Shape.error.key ∉ declaredKeys exported)
    (s : Shape) (hbare : ∀ u ∈ s.parts, IsBare u) :
    ShowsStable T s := by
  induction s using Shape.induction with
  | step name package args nullable ih =>
      have hargs : ∀ a ∈ args, ShowsStable T a := by
        intro a ha
        refine ih a ha fun u hu => hbare u ?_
        exact parts_subset_of_mem_args (s := ⟨name, package, args, nullable⟩) ha hu
      intro s' h
      have hself := h
      rw [Table.exported_eq] at h
      cases hc : T.conversion? ⟨name, package, args, nullable⟩ with
      | error o => simp [hc] at h
      | ok c =>
          rw [hc] at h
          cases lookup_ofSession hT hc with
          | identity hkey =>
              obtain rfl := Except.ok.inj h
              have hnil : args = [] := hbare _ (Shape.self_mem_parts _) hkey
              exact stays_of_args_nil hnil hself
          | long hkey =>
              obtain rfl := Except.ok.inj h
              exact stays_double hT nullable
          | longArray hkey =>
              obtain rfl := Except.ok.inj h
              exact stays_arrayOf nullable hT (stays_double hT false)
          | array hkey | list hkey =>
              obtain ⟨a, ha, h⟩ := Outcome.bind_eq_ok_iff.1 h
              obtain rfl := Except.ok.inj h
              exact stays_arrayOf nullable hT
                (stays_of_exportedFirst (s := ⟨name, package, args, nullable⟩) hargs ha)
          | exception hkey hnew =>
              obtain rfl := Except.ok.inj h
              exact stays_of_args_nil rfl (exported_error nullable hT herror)
          | declared hmem hnone hkey hnew | instantiated hmem hkey hsame hnew hfunction =>
              obtain rfl := Except.ok.inj h
              exact stays_of_args_nil rfl (exported_wrapper nullable hT hwrappers hmem)
          | function hfunction hread =>
              obtain ⟨args', hall, h⟩ := Outcome.bind_eq_ok_iff.1 h
              obtain rfl := Except.ok.inj h
              rw [Table.exportedAll_eq_mapM, Outcome.mapM_eq_ok_iff] at hall
              have hparts : ∀ a' ∈ args', ∀ u ∈ a'.parts, Stays T u := by
                intro a' ha'
                obtain ⟨a, ha, hshown⟩ := Outcome.exists_left_of_forall₂ hall ha'
                exact hargs a ha a' hshown
              have hfixed := exported_function hT hc hall.length_eq
                fun a' ha' => (hparts a' ha' a' a'.self_mem_parts).fixed
              refine forall_mem_parts ⟨hfixed, isBare_of_not_mem_builtinKeys fun hkey => ?_⟩ hparts
              have := Shape.isFunction_of_mem_builtinKeys
                (s := ⟨name, package, args, nullable⟩) hkey
              simp [hfunction] at this
          | unknown hnew hfunction =>
              obtain ⟨args', hall, h⟩ := Outcome.bind_eq_ok_iff.1 h
              split at h
              · next hsame =>
                  obtain rfl := Except.ok.inj h
                  -- the arguments stay one by one, so that they stay at every depth
                  rw [Table.exportedAll_eq_mapM, Outcome.mapM_eq_ok_iff, hsame,
                    List.forall₂_same] at hall
                  exact forall_mem_parts ⟨hself, isBare_of_not_mem_builtinKeys hnew⟩
                    fun a ha => hargs a ha a (hall a ha)
              · simp at h

end Fixed

section Exportable

/-- A session that starts has no other rules for built-in types. -/
theorem not_mem_declaredKeys_of_mem_builtinKeys {key : Key}
    (hT : Table.ofSession exported extra erase = .ok T)
    (hkey : key ∈ builtinKeys) :
    key ∉ exceptionKeys extra ∧ key ∉ declaredKeys exported := by
  have hapart := exists_ofSession_iff.1 ⟨T, hT⟩
  constructor
  · intro hexception
    exact hapart.builtin key hexception hkey
  · intro hdeclared
    exact (hapart.declared key hdeclared).1 hkey

/-- A type without arguments is exported by the session only if it is found by its key. -/
theorem not_instantiated_of_args_nil {u native : Shape} {name : String}
    (hargs : u.args = [])
    (hdeclared : u.key ∉ declaredKeys exported)
    (hmem : (native, name) ∈ exported)
    (hkey : u.key = native.key) :
    u.args ≠ native.args := by
  intro hsame
  exact hdeclared (mem_declaredKeys.2 ⟨native, name, hmem, hsame ▸ hargs, hkey.symm⟩)

/-- The wrapper of a declaration that is found by its key is not the declaration. -/
theorem wrapper_ne {u native : Shape} {name : String} {nullable : Bool}
    (hwrappers : WrappersApart exported extra erase)
    (hmem : (native, name) ∈ exported)
    (hkey : u.key = native.key)
    (hargs : native.args = []) :
    (Shape.ofKey (wrapperKey native name erase)).withNullable nullable ≠ u := by
  intro hshown
  have hwrapper : wrapperKey native name erase = native.key := by
    rw [← hkey, ← hshown]
    rfl
  exact (hwrappers _ hmem).2 (mem_declaredKeys.2 ⟨native, name, hmem, hargs, hwrapper.symm⟩)

/-- A type that is shown as itself without a rule of its own is exportable. -/
theorem exportable_of_keyConversion? {u : Shape}
    (hfixed : T.exported u = .ok u)
    (hkey : keyConversion? exported extra erase u.key = none)
    (hinstance : ∀ native name, (native, name) ∈ exported → u.key = native.key →
      u.args = native.args → u.key = Shape.array.key ∨ u.isFunction = true) :
    Exportable exported extra T u := by
  obtain ⟨hbuiltin, hexception, hdeclared⟩ := keyConversion?_eq_none_iff.1 hkey
  refine ⟨hfixed, ?_, fun h => absurd h hexception, hdeclared, hinstance⟩
  intro hmem
  have hsubset : ∀ k ∈ [Shape.long.key, Shape.longArray.key, Shape.list.key], k ∈ builtinKeys := by
    decide
  exact hbuiltin (hsubset _ hmem)

/-- The rule that is found for a type that is shown as it is decides what the type is. -/
theorem exportable_of_stays {u : Shape}
    (hT : Table.ofSession exported extra erase = .ok T)
    (hwrappers : WrappersApart exported extra erase)
    (hstays : Stays T u) :
    Exportable exported extra T u := by
  obtain ⟨hfixed, hbare⟩ := hstays
  have h := hfixed
  rw [Table.exported_eq] at h
  cases hc : T.conversion? u with
  | error o => simp [hc] at h
  | ok c =>
      rw [hc] at h
      cases lookup_ofSession hT hc with
      | identity hkey =>
          obtain ⟨hexception, hdeclared⟩ :=
            not_mem_declaredKeys_of_mem_builtinKeys hT (List.mem_append_left _ hkey)
          have hkinds : ∀ k ∈ identityTypes.map Shape.key,
              k ∉ [Shape.long.key, Shape.longArray.key, Shape.list.key] := by decide
          refine ⟨hfixed, hkinds _ hkey, fun h => absurd h hexception, hdeclared, ?_⟩
          intro native name hmem hsame hargs
          exact absurd hargs (not_instantiated_of_args_nil (hbare hkey) hdeclared hmem hsame)
      -- what has a conversion of its own is shown under another key
      | long hkey =>
          have hshown : Shape.double.key = Shape.long.key :=
            (congrArg Shape.key (Except.ok.inj h)).trans hkey
          exact absurd hshown (by decide)
      | longArray hkey =>
          have hshown : Shape.array.key = Shape.longArray.key :=
            (congrArg Shape.key (Except.ok.inj h)).trans hkey
          exact absurd hshown (by decide)
      | array hkey =>
          have harray : Shape.array.key ∈ builtinKeys := by decide
          obtain ⟨hexception, hdeclared⟩ :=
            not_mem_declaredKeys_of_mem_builtinKeys hT (hkey ▸ harray)
          refine ⟨hfixed, ?_, fun h => absurd h hexception, hdeclared,
            fun _ _ _ _ _ => .inl hkey⟩
          rw [hkey]
          decide
      | list hkey =>
          obtain ⟨a, -, h⟩ := Outcome.bind_eq_ok_iff.1 h
          have hshown : Shape.array.key = Shape.list.key :=
            (congrArg Shape.key (Except.ok.inj h)).trans hkey
          exact absurd hshown (by decide)
      | exception hkey hnew =>
          have hshown := Except.ok.inj h
          have herror : u.key = Shape.error.key := by
            rw [← hshown]
            rfl
          have hargs : u.args = [] := by
            rw [← hshown]
            rfl
          have hdeclared : u.key ∉ declaredKeys exported := fun hmem =>
            ((exists_ofSession_iff.1 ⟨T, hT⟩).declared _ hmem).2 hkey
          refine ⟨hfixed, ?_, fun _ => herror, hdeclared, ?_⟩
          · rw [herror]
            decide
          · intro native name hmem hsame hnative
            exact absurd hnative (not_instantiated_of_args_nil hargs hdeclared hmem hsame)
      | declared hmem hnil hkey hnew =>
          exact absurd (Except.ok.inj h) (wrapper_ne hwrappers hmem hkey hnil)
      | instantiated hmem hkey hsame hnew hfunction =>
          have hnil : u.args = [] := by
            rw [← Except.ok.inj h]
            rfl
          exact absurd (Except.ok.inj h) (wrapper_ne hwrappers hmem hkey (hsame ▸ hnil))
      | function hfunction hread =>
          have hkey := keyConversion?_of_conversion? hT hc (.inr rfl)
          exact exportable_of_keyConversion? hfixed hkey fun _ _ _ _ _ => .inr hfunction
      | unknown hnew hfunction =>
          have hkey := keyConversion?_of_conversion? hT hc (.inl rfl)
          have hinstance := instanceConversion?_of_conversion? hT hc
          refine exportable_of_keyConversion? hfixed hkey ?_
          intro native name hmem hsame hargs
          by_cases hnil : native.args = []
          · have hdeclared := (keyConversion?_eq_none_iff.1 hkey).2.2
            exact absurd hargs
              (not_instantiated_of_args_nil (hargs.trans hnil) hdeclared hmem hsame)
          · rw [instanceConversion?, Option.map_eq_none_iff, List.find?_eq_none] at hinstance
            exact absurd (hinstance _ hmem) (by simp [hsame, hargs, hnil])

/-- Every part of a type that is shown is exportable, if wrappers and the error type are not
converted themselves. -/
theorem shown_parts_are_exportable
    (hT : Table.ofSession exported extra erase = .ok T)
    (hwrappers : WrappersApart exported extra erase)
    (herror : Shape.error.key ∉ declaredKeys exported)
    {s s' : Shape}
    (hbare : ∀ u ∈ s.parts, IsBare u)
    (h : T.exported s = .ok s') :
    ∀ u ∈ s'.parts, Exportable exported extra T u := by
  intro u hu
  exact exportable_of_stays hT hwrappers (stays_of_exported hT hwrappers herror s hbare s' h u hu)

/-- A player with queues of numbers, and a callback that hears of queues and failures. -/
def player : List (Shape × String) :=
  [({ name := "Player", package := "music" }, "Player"),
    ({ name := "Queue", package := "music", args := [.long] }, "LongQueue")]

def playerFailure : Shape := { name := "PlayerFailure", package := "music" }

def playerCallback : Shape :=
  .functionOf [.listOf { name := "Queue", package := "music", args := [.long], nullable := true },
    playerFailure] .longArray

def shownQueue : Shape := { name := "LongQueue", package := "music.js", nullable := true }

theorem shown_parts_are_exportable_of_playerCallback :
    WrappersApart player [playerFailure] false ∧ Shape.error.key ∉ declaredKeys player ∧
      (∀ u ∈ playerCallback.parts, IsBare u) ∧
      ∃ T s', Table.ofSession player [playerFailure] false = .ok T ∧
        T.exported playerCallback = .ok s' ∧
        s' = .functionOf [.arrayOf shownQueue, .error] (.arrayOf .double) ∧
        ∀ u ∈ s'.parts, Exportable player [playerFailure] T u := by
  have hwrappers : WrappersApart player [playerFailure] false := by decide
  have herror : Shape.error.key ∉ declaredKeys player := by decide
  have hbare : ∀ u ∈ playerCallback.parts, IsBare u := by decide
  have hT : Table.ofSession player [playerFailure] false =
      .ok ⟨sessionRules player [playerFailure] false⟩ := ofSession_eq_ok (by decide)
  have hshown : Table.exported ⟨sessionRules player [playerFailure] false⟩ playerCallback =
      .ok (.functionOf [.arrayOf shownQueue, .error] (.arrayOf .double)) := by decide
  exact ⟨hwrappers, herror, hbare, _, _, hT, hshown, rfl,
    shown_parts_are_exportable hT hwrappers herror hbare hshown⟩

/-- The error type of JavaScript is a type like any other: a session that exports it shows it in
another way, one that lists it as an exception keeps it, and an exported instance of a function
type is shown as a function. -/
theorem exists_shown_unexportable :
    (∃ T, Table.ofSession [(.error, "Error")] [] false = .ok T ∧
      WrappersApart [(.error, "Error")] [] false ∧
      T.exported (.kotlin "Throwable") = .ok .error ∧ T.exported .error ≠ .ok .error) ∧
    (∃ T, Table.ofSession [] [.error] false = .ok T ∧
      T.exported (.kotlin "Throwable") = .ok .error ∧
      Shape.error.key ∈ exceptionKeys [.error]) ∧
    ∃ T, Table.ofSession [(.functionOf [.int] .int, "Counter")] [] false = .ok T ∧
      WrappersApart [(.functionOf [.int] .int, "Counter")] [] false ∧
      T.exported (.functionOf [.int] .int) = .ok (.functionOf [.int] .int) := by
  refine ⟨⟨_, ofSession_eq_ok (by decide), ?_, ?_, ?_⟩, ⟨_, ofSession_eq_ok (by decide), ?_, ?_⟩,
    ⟨_, ofSession_eq_ok (by decide), ?_, ?_⟩⟩
  all_goals decide

end Exportable

end Mapping
end Facade
