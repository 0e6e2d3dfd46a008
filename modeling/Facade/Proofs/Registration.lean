import Facade.Session.Basic
import Facade.Proofs.SessionTable

/-!
# What the requests of a session register

Before any request is handled, every request registers the native type it exports and the name of
its wrapper.  The first request for a native type decides on the name.

**Input.**  The requests of a session.

**Results.**
* `find?_exportedTypes`: the entry of a native type is that of the first request for it.
* `mem_exportedTypes` and `exists_mem_exportedTypes`: every entry comes from a request, and every
  type that a request exports has an entry.
* `exists_exportedTypes`: requests of known kinds can always be registered.
* `start_eq_ok_iff`: what a session that has started consists of.
* `exists_start_iff`: a session starts exactly when no type has two rules.
-/

namespace Facade

namespace Dictionary

variable {κ α : Type} [DecidableEq κ]

theorem find?_putNew (d : Dictionary κ α) (key : κ) (value : α) (k : κ) :
    (d.putNew key value).find? (fun entry => entry.1 = k) =
      (d.find? fun entry => entry.1 = k).or ([(key, value)].find? fun entry => entry.1 = k) := by
  rw [putNew]
  split
  · next hhas =>
      by_cases hk : key = k
      · -- the key is there already, so the old entry wins
        subst hk
        have hsome : (d.find? fun entry => entry.1 = key).isSome = true := by
          simpa [has] using hhas
        obtain ⟨entry, hentry⟩ := Option.isSome_iff_exists.1 hsome
        rw [hentry, Option.some_or]
      · simp [hk]
  · rw [List.find?_append]

/-- Sets the values of keys that have none, from left to right. -/
def putAllNew (d : Dictionary κ α) : List (κ × α) → Dictionary κ α
  | [] => d
  | entry :: rest => putAllNew (d.putNew entry.1 entry.2) rest

/-- The first entry for a key counts. -/
theorem find?_putAllNew (d : Dictionary κ α) (entries : List (κ × α)) (k : κ) :
    (d.putAllNew entries).find? (fun entry => entry.1 = k) =
      (d.find? fun entry => entry.1 = k).or (entries.find? fun entry => entry.1 = k) := by
  induction entries generalizing d with
  | nil => simp [putAllNew]
  | cons entry rest ih =>
      rw [putAllNew, ih, find?_putNew, Option.or_assoc, ← List.find?_append]
      rfl

theorem mem_putAllNew {d : Dictionary κ α} {entries : List (κ × α)} {entry : κ × α}
    (h : entry ∈ d.putAllNew entries) :
    entry ∈ d ∨ entry ∈ entries := by
  induction entries generalizing d with
  | nil => exact .inl h
  | cons first rest ih =>
      rcases ih h with hd | hrest
      · unfold putNew at hd
        split at hd
        · exact .inl hd
        · rcases List.mem_append.1 hd with hd | hd
          · exact .inl hd
          · exact .inr (List.mem_cons.2 (.inl (List.mem_singleton.1 hd)))
      · exact .inr (List.mem_cons_of_mem _ hrest)

theorem nodup_keys_putAllNew {d : Dictionary κ α} (entries : List (κ × α))
    (h : d.keys.Nodup) :
    (d.putAllNew entries).keys.Nodup := by
  induction entries generalizing d with
  | nil => exact h
  | cons entry rest ih =>
      refine ih ?_
      rw [putNew]
      split
      · exact h
      · next hnew =>
          have hkeys : (d ++ [entry]).keys = d.keys ++ [entry.1] := by simp [keys]
          rw [hkeys, List.nodup_append]
          refine ⟨h, List.nodup_singleton _, ?_⟩
          rintro key hmem _ hkey rfl
          obtain rfl := List.mem_singleton.1 hkey
          exact hnew (has_eq_true_iff.2 hmem)

end Dictionary

theorem Shape.eq_iff_of_nullable {s t : Shape}
    (hs : s.nullable = false)
    (ht : t.nullable = false) :
    s = t ↔ s.key = t.key ∧ s.args = t.args := by
  obtain ⟨name, package, args, nullable⟩ := s
  obtain ⟨name', package', args', nullable'⟩ := t
  obtain rfl : nullable = false := hs
  obtain rfl : nullable' = false := ht
  simp only [Shape.key, Shape.mk.injEq, Key.mk.injEq, and_true]
  constructor
  · rintro ⟨rfl, rfl, rfl⟩
    exact ⟨⟨rfl, rfl⟩, rfl⟩
  · rintro ⟨⟨rfl, rfl⟩, rfl⟩
    exact ⟨rfl, rfl, rfl⟩

/-- Registered types differ by their keys, once their arguments are empty. -/
theorem Mapping.nodup_declaredKeys {known : Dictionary Shape String}
    (hnodup : known.keys.Nodup)
    (hnullable : ∀ entry ∈ known, entry.1.nullable = false) :
    (declaredKeys known).Nodup := by
  refine List.Nodup.map_on ?_ (hnodup.sublist (List.filter_sublist.map Prod.fst))
  have hplain : ∀ native ∈ (known.filter fun entry => entry.1.args.isEmpty).map Prod.fst,
      native.args = [] ∧ native.nullable = false := by
    intro native h
    obtain ⟨entry, hentry, rfl⟩ := List.mem_map.1 h
    obtain ⟨hentry, hargs⟩ := List.mem_filter.1 hentry
    exact ⟨List.isEmpty_iff.1 hargs, hnullable entry hentry⟩
  intro native hnative native' hnative' hkey
  obtain ⟨hargs, hnull⟩ := hplain native hnative
  obtain ⟨hargs', hnull'⟩ := hplain native' hnative'
  exact (Shape.eq_iff_of_nullable hnull hnull').2 ⟨hkey, hargs.trans hargs'.symm⟩

/-- Whether a declaration is of a kind that has a wrapper. -/
def Declaration.isWrappable : Declaration → Bool
  | .other _ _ => false
  | _ => true

namespace Request

/-- The type that a request exports. -/
def native : Request → Shape
  | .generics _ d args _ => d.header.shape.withArgs args
  | .declaration (.cls d) _ => d.native
  | .declaration (.interface d) _ => d.native
  | .declaration d _ => d.header.shape

/-- The entry that a request registers: a type with the name of its wrapper. -/
def registered? : Request → Option (Shape × String)
  | .generics name d args _ => some (d.header.shape.withArgs args, name)
  | .declaration d _ => if d.typeParams.isEmpty then (Session.nativeType d).toOption else none

/-- A request registers the native type that it asks for. -/
theorem native_of_registered? {r : Request} {native : Shape} {name : String}
    (h : r.registered? = some (native, name)) :
    native = r.native := by
  cases r with
  | generics name' d args sources =>
      obtain ⟨rfl, -⟩ := by simpa [registered?] using h
      rfl
  | declaration d sources =>
      rw [registered?] at h
      split at h
      · cases d with
        | other kind header => simp [Session.nativeType, Except.toOption] at h
        | _ =>
            obtain ⟨rfl, -⟩ := by simpa [Session.nativeType, Except.toOption] using h
            rfl
      · simp at h

theorem typeParams_of_registered? {d : Declaration} {sources : List Location}
    {entry : Shape × String}
    (h : registered? (.declaration d sources) = some entry) :
    d.typeParams = [] := by
  by_contra hopen
  simp [registered?, hopen] at h

theorem native_declaration (d : Declaration) (sources sources' : List Location) :
    native (.declaration d sources) = native (.declaration d sources') := by
  cases d <;> rfl

theorem key_native (r : Request) :
    r.native.key = r.decl.header.shape.key := by
  cases r with
  | generics name d args sources => rfl
  | declaration d sources => cases d <;> rfl

/-- No native type may be null. -/
theorem nullable_native (r : Request) :
    r.native.nullable = false := by
  cases r with
  | generics name d args sources => rfl
  | declaration d sources => cases d <;> rfl

end Request

namespace Session

open Mapping Wrapper

variable {requests : List Request} {known : Dictionary Shape String}

/-- A request adds its type unless it is known already. -/
theorem addExported_eq_ok {known' : Dictionary Shape String} {r : Request}
    (h : addExported known r = .ok known') :
    known' = known.putAllNew r.registered?.toList := by
  cases r with
  | generics name d args sources => exact (Except.ok.inj h).symm
  | declaration d sources =>
      rw [addExported] at h
      rw [Request.registered?]
      split at h
      · next hclosed =>
          obtain ⟨entry, hentry, h⟩ := Outcome.bind_eq_ok_iff.1 h
          obtain rfl := Except.ok.inj h
          rw [if_pos hclosed, hentry]
          rfl
      · next hopen =>
          rw [if_neg hopen]
          exact (Except.ok.inj h).symm

theorem exists_addExported {r : Request} (start : Dictionary Shape String)
    (hkind : r.decl.isWrappable) :
    ∃ next, addExported start r = .ok next := by
  cases r with
  | generics name d args sources => exact ⟨_, rfl⟩
  | declaration d sources =>
      rw [addExported]
      split
      · cases d with
        | other kind header => exact absurd hkind (by simp [Request.decl, Declaration.isWrappable])
        | _ => exact ⟨_, rfl⟩
      · exact ⟨_, rfl⟩

/-- The exported types are those that the requests register, each under its first name. -/
theorem exportedTypes_eq
    (h : exportedTypes requests = .ok known) :
    known = Dictionary.putAllNew [] (requests.filterMap Request.registered?) := by
  suffices hall : ∀ start : Dictionary Shape String, requests.foldlM addExported start = .ok known →
      known = start.putAllNew (requests.filterMap Request.registered?) from hall [] h
  clear h
  induction requests with
  | nil => exact fun start h => (Except.ok.inj h).symm
  | cons r rest ih =>
      intro start h
      rw [List.foldlM_cons] at h
      obtain ⟨next, hnext, h⟩ := Outcome.bind_eq_ok_iff.1 h
      rw [ih next h, addExported_eq_ok hnext]
      cases hentry : r.registered? with
      | none => simp [hentry, Dictionary.putAllNew]
      | some entry => simp [hentry, Dictionary.putAllNew]

/-- The first request for a native type decides. -/
theorem find?_exportedTypes
    (h : exportedTypes requests = .ok known) (native : Shape) :
    known.find? (fun entry => entry.1 = native) =
      (requests.filterMap Request.registered?).find? fun entry => entry.1 = native := by
  rw [exportedTypes_eq h, Dictionary.find?_putAllNew]
  rfl

/-- Every exported type was registered by a request. -/
theorem mem_exportedTypes {native : Shape} {name : String}
    (h : exportedTypes requests = .ok known)
    (hmem : (native, name) ∈ known) :
    ∃ r ∈ requests, r.registered? = some (native, name) := by
  rw [exportedTypes_eq h] at hmem
  rcases Dictionary.mem_putAllNew hmem with hnil | hmem
  · exact absurd hnil List.not_mem_nil
  · exact List.mem_filterMap.1 hmem

/-- Every type that a request registers is exported, under this name or an earlier one. -/
theorem exists_mem_exportedTypes {r : Request} {native : Shape} {name : String}
    (h : exportedTypes requests = .ok known)
    (hr : r ∈ requests)
    (hregistered : r.registered? = some (native, name)) :
    ∃ first, (native, first) ∈ known := by
  have hsome : ((requests.filterMap Request.registered?).find? fun entry =>
      entry.1 = native).isSome := by
    rw [List.find?_isSome]
    exact ⟨_, List.mem_filterMap.2 ⟨r, hr, hregistered⟩, by simp⟩
  obtain ⟨⟨native', first⟩, hfind⟩ := Option.isSome_iff_exists.1 hsome
  obtain rfl : native' = native := by simpa using List.find?_some hfind
  rw [← find?_exportedTypes h] at hfind
  exact ⟨first, List.mem_of_find?_eq_some hfind⟩

/-- No type is exported twice. -/
theorem nodup_keys_exportedTypes
    (h : exportedTypes requests = .ok known) :
    known.keys.Nodup := by
  rw [exportedTypes_eq h]
  exact Dictionary.nodup_keys_putAllNew _ List.nodup_nil

theorem exists_exportedTypes
    (hkinds : ∀ r ∈ requests, r.decl.isWrappable) :
    ∃ known, exportedTypes requests = .ok known := by
  suffices hall : ∀ start : Dictionary Shape String,
      ∃ known, requests.foldlM addExported start = .ok known from hall []
  induction requests with
  | nil => exact fun start => ⟨start, rfl⟩
  | cons r rest ih =>
      intro start
      obtain ⟨next, hnext⟩ := exists_addExported start (hkinds r List.mem_cons_self)
      obtain ⟨known, hknown⟩ := ih (fun q hq => hkinds q (List.mem_cons_of_mem _ hq)) next
      refine ⟨known, ?_⟩
      rw [List.foldlM_cons]
      exact Outcome.bind_eq_ok_iff.2 ⟨next, hnext, hknown⟩

theorem nullable_of_mem_exportedTypes {entry : Shape × String}
    (h : exportedTypes requests = .ok known)
    (hmem : entry ∈ known) :
    entry.1.nullable = false := by
  obtain ⟨r, -, hr⟩ := mem_exportedTypes h hmem
  rw [Request.native_of_registered? hr, r.nullable_native]

/-- A session starts with the table of its exported types. -/
theorem start_eq_ok_iff {extra : List Shape} {erase : Bool} {ctx : Context} :
    start requests extra erase = .ok ctx ↔
      ∃ known T, exportedTypes requests = .ok known ∧ Table.ofSession known extra erase = .ok T ∧
        ctx = Context.ofSession T known (sealedTypes requests) erase := by
  rw [start, Outcome.bind_eq_ok_iff]
  simp only [Outcome.bind_eq_ok_iff, Outcome.mapError_eq_ok_iff, Except.ok.injEq]
  constructor
  · rintro ⟨known, hknown, T, hT, rfl⟩
    exact ⟨known, T, hknown, hT, rfl⟩
  · rintro ⟨known, T, hknown, hT, rfl⟩
    exact ⟨known, hknown, T, hT, rfl⟩

theorem start_eq_ok {extra : List Shape} {erase : Bool} {ctx : Context}
    (h : start requests extra erase = .ok ctx) :
    ∃ known, exportedTypes requests = .ok known ∧
      Table.ofSession known extra erase = .ok ctx.table ∧ ctx.erase = erase := by
  obtain ⟨known, T, hknown, hT, rfl⟩ := start_eq_ok_iff.1 h
  exact ⟨known, hknown, hT, rfl⟩

/-- A session starts exactly when no type has two rules. -/
theorem exists_start_iff {extra : List Shape} {erase : Bool}
    (hknown : exportedTypes requests = .ok known) :
    (∃ ctx, start requests extra erase = .ok ctx) ↔ Apart known extra := by
  rw [← @exists_ofSession_iff known extra erase]
  constructor
  · rintro ⟨ctx, hctx⟩
    obtain ⟨known', hknown', hT, -⟩ := start_eq_ok hctx
    obtain rfl := Except.ok.inj (hknown.symm.trans hknown')
    exact ⟨_, hT⟩
  · rintro ⟨T, hT⟩
    exact ⟨_, start_eq_ok_iff.2 ⟨known, T, hknown, hT, rfl⟩⟩

/-- A session that starts answers all its requests. -/
theorem run_eq_ok_iff {extra : List Shape} {erase : Bool} {outcome : Outcome} :
    run requests extra erase = .ok outcome ↔
      ∃ ctx, start requests extra erase = .ok ctx ∧
        outcome = ⟨exportAll ctx requests, sessionLines ctx requests⟩ := by
  rw [run, Outcome.bind_eq_ok_iff]
  constructor
  · rintro ⟨ctx, hctx, h⟩
    exact ⟨ctx, hctx, (Except.ok.inj h).symm⟩
  · rintro ⟨ctx, hctx, rfl⟩
    exact ⟨ctx, hctx, rfl⟩

/-- A session that has started comes to its end. -/
theorem exists_run_error_iff {extra : List Shape} {erase : Bool} :
    (∃ e, run requests extra erase = .error e) ↔
      ¬ ∃ ctx, start requests extra erase = .ok ctx := by
  rw [run]
  cases start requests extra erase with
  | error e => simp [bind, Except.bind]
  | ok ctx => simp [bind, Except.bind]

end Session

end Facade
