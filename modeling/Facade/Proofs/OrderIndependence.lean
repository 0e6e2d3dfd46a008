import Facade.Proofs.AlikeContexts
import Facade.Proofs.Registration
import Mathlib.Data.List.Find
import Mathlib.Data.List.FinRange

/-!
# The order of requests

Rules are tried in the order in which the requests register them, and the first request for a type
decides on its name.  Neither shows in the results: at most one rule of the session holds for a
shape, and requests for the same type agree on its name.

**Input.**  The requests of a session and a permutation of them.

**Results.**
* `conversion?_of_perm`: a table finds the same conversions in whatever order the types are
  registered.
* `perm_exportedTypes`: permuted requests register the same types.
* `results_of_permuted_requests`: permuted requests have the permuted results.
-/

namespace Facade

open Mapping Wrapper

namespace Mapping

variable {known known' : Dictionary Shape String} {extra : List Shape} {erase : Bool}
  {T T' : Table}

/-- A registered type is found at the same entry in any order, as long as what is looked for fits
one type only. -/
theorem find?_of_perm {p : Shape × String → Bool}
    (hperm : known.Perm known')
    (hnodup : known.keys.Nodup)
    (hp : ∀ entry ∈ known, ∀ entry' ∈ known, p entry → p entry' → entry.1 = entry'.1) :
    known.find? p = known'.find? p := by
  refine List.find?_eq_find?_of_perm hperm ?_
  rintro entry ⟨hmem, hentry⟩ entry' ⟨hmem', hentry'⟩
  exact List.inj_on_of_nodup_map hnodup hmem hmem' (hp entry hmem entry' hmem' hentry hentry')

/-- The order of the exported types does not matter to the rules for keys. -/
theorem keyConversion?_of_perm
    (hperm : known.Perm known')
    (hnodup : known.keys.Nodup)
    (hnullable : ∀ entry ∈ known, entry.1.nullable = false) (key : Key) :
    keyConversion? known extra erase key = keyConversion? known' extra erase key := by
  rw [keyConversion?, keyConversion?, find?_of_perm hperm hnodup]
  intro entry hmem entry' hmem' hentry hentry'
  rw [Bool.and_eq_true, List.isEmpty_iff, beq_iff_eq] at hentry hentry'
  refine (Shape.eq_iff_of_nullable (hnullable entry hmem) (hnullable entry' hmem')).2 ⟨?_, ?_⟩
  · rw [hentry.2, hentry'.2]
  · rw [hentry.1, hentry'.1]

theorem instanceConversion?_of_perm
    (hperm : known.Perm known')
    (hnodup : known.keys.Nodup)
    (hnullable : ∀ entry ∈ known, entry.1.nullable = false) (s : Shape) :
    instanceConversion? known erase s = instanceConversion? known' erase s := by
  rw [instanceConversion?, instanceConversion?, find?_of_perm hperm hnodup]
  intro entry hmem entry' hmem' hentry hentry'
  simp only [Bool.and_eq_true, beq_iff_eq] at hentry hentry'
  refine (Shape.eq_iff_of_nullable (hnullable entry hmem) (hnullable entry' hmem')).2 ⟨?_, ?_⟩
  · rw [← hentry.2.1, ← hentry'.2.1]
  · rw [← hentry.2.2, ← hentry'.2.2]

/-- Tables of the same types in another order find the same conversions. -/
theorem conversion?_of_perm
    (hperm : known.Perm known')
    (hnodup : known.keys.Nodup)
    (hnullable : ∀ entry ∈ known, entry.1.nullable = false)
    (hT : Table.ofSession known extra erase = .ok T)
    (hT' : Table.ofSession known' extra erase = .ok T') (s : Shape) :
    T.conversion? s = T'.conversion? s := by
  rw [conversion?_ofSession hT, conversion?_ofSession hT',
    keyConversion?_of_perm hperm hnodup hnullable,
    instanceConversion?_of_perm hperm hnodup hnullable]

theorem Apart.of_perm
    (h : Apart known extra)
    (hperm : known.Perm known') :
    Apart known' extra := by
  have hkeys : (declaredKeys known).Perm (declaredKeys known') :=
    ((hperm.filter _).map _).map _
  constructor
  case exceptions => exact h.exceptions
  case builtin => exact h.builtin
  case nodup => exact hkeys.nodup_iff.1 h.nodup
  case declared =>
    intro key hkey
    exact h.declared key (hkeys.mem_iff.2 hkey)

end Mapping

/-- Two requests for the same type agree on the name of its wrapper. -/
def Request.AgreesOnName (r r' : Request) : Prop :=
  ∀ entry ∈ r.registered?, ∀ entry' ∈ r'.registered?, entry.1 = entry'.1 → entry.2 = entry'.2

instance (r r' : Request) : Decidable (r.AgreesOnName r') :=
  inferInstanceAs (Decidable (∀ entry ∈ r.registered?, ∀ entry' ∈ r'.registered?,
    entry.1 = entry'.1 → entry.2 = entry'.2))

namespace Session

variable {requests requests' : List Request} {known known' : Dictionary Shape String}
  {extra : List Shape} {erase : Bool} {ctx ctx' : Context}

/-- Requests that agree on their names register whatever one of them registers. -/
theorem mem_exportedTypes_iff {native : Shape} {name : String}
    (hnames : ∀ r ∈ requests, ∀ r' ∈ requests, r.AgreesOnName r')
    (h : exportedTypes requests = .ok known) :
    (native, name) ∈ known ↔ ∃ r ∈ requests, r.registered? = some (native, name) := by
  constructor
  · exact mem_exportedTypes h
  · rintro ⟨r, hr, hregistered⟩
    obtain ⟨first, hfirst⟩ := exists_mem_exportedTypes h hr hregistered
    obtain ⟨r', hr', hregistered'⟩ := mem_exportedTypes h hfirst
    obtain rfl : name = first := hnames r hr r' hr' _ hregistered _ hregistered' rfl
    exact hfirst

/-- The exported types of permuted requests are permuted. -/
theorem perm_exportedTypes
    (hperm : requests.Perm requests')
    (hnames : ∀ r ∈ requests, ∀ r' ∈ requests, r.AgreesOnName r')
    (h : exportedTypes requests = .ok known)
    (h' : exportedTypes requests' = .ok known') :
    known.Perm known' := by
  have hnames' : ∀ r ∈ requests', ∀ r' ∈ requests', r.AgreesOnName r' := by
    intro r hr r' hr'
    exact hnames r (hperm.mem_iff.2 hr) r' (hperm.mem_iff.2 hr')
  refine (List.perm_ext_iff_of_nodup ?_ ?_).2 ?_
  · exact (nodup_keys_exportedTypes h).of_map _
  · exact (nodup_keys_exportedTypes h').of_map _
  · rintro ⟨native, name⟩
    rw [mem_exportedTypes_iff hnames h, mem_exportedTypes_iff hnames' h']
    simp only [hperm.mem_iff]

/-- Permuted requests start sessions that look alike. -/
theorem alike_of_perm
    (hperm : requests.Perm requests')
    (hnames : ∀ r ∈ requests, ∀ r' ∈ requests, r.AgreesOnName r')
    (h : start requests extra erase = .ok ctx)
    (h' : start requests' extra erase = .ok ctx') :
    ctx.Alike ctx' := by
  obtain ⟨known, T, hknown, hT, rfl⟩ := start_eq_ok_iff.1 h
  obtain ⟨known', T', hknown', hT', rfl⟩ := start_eq_ok_iff.1 h'
  have hregistered := perm_exportedTypes hperm hnames hknown hknown'
  constructor
  case conversion =>
    exact conversion?_of_perm hregistered (nodup_keys_exportedTypes hknown)
      (fun _ hmem => nullable_of_mem_exportedTypes hknown hmem) hT hT'
  case erase => rfl
  case sealedBases => exact fun key => ((hperm.filterMap _).map Shape.key).mem_iff
  case exportedNames => exact fun entry => (hregistered.map _).mem_iff

/-- Whether a session starts does not depend on the order of its requests. -/
theorem exists_start_of_perm
    (hperm : requests.Perm requests')
    (hkinds : ∀ r ∈ requests, r.decl.isWrappable)
    (hnames : ∀ r ∈ requests, ∀ r' ∈ requests, r.AgreesOnName r')
    (h : start requests extra erase = .ok ctx) :
    ∃ ctx', start requests' extra erase = .ok ctx' := by
  obtain ⟨known, hknown, -, -⟩ := start_eq_ok h
  obtain ⟨known', hknown'⟩ := exists_exportedTypes fun r hr => hkinds r (hperm.mem_iff.2 hr)
  rw [exists_start_iff hknown']
  exact ((exists_start_iff hknown).1 ⟨ctx, h⟩).of_perm
    (perm_exportedTypes hperm hnames hknown hknown')

/-- If all requests for a type agree on its name, permuting the requests permutes the results. -/
theorem results_of_permuted_requests {n : Nat}
    (requests : Fin n → Request) (p : Equiv.Perm (Fin n)) (extra : List Shape) (erase : Bool)
    (hkinds : ∀ i, (requests i).decl.isWrappable)
    (hnames : ∀ i j, (requests i).AgreesOnName (requests j)) :
    ((∃ e, run (List.ofFn (requests ∘ p)) extra erase = .error e) ↔
        ∃ e, run (List.ofFn requests) extra erase = .error e) ∧
      ∀ outcome, run (List.ofFn requests) extra erase = .ok outcome →
        ∃ (results : Fin n → ExportResult) (permuted : Outcome),
          outcome.results = List.ofFn results ∧
            run (List.ofFn (requests ∘ p)) extra erase = .ok permuted ∧
            permuted.results = List.ofFn (results ∘ p) := by
  have hperm : (List.ofFn requests).Perm (List.ofFn (requests ∘ p)) :=
    (p.ofFn_comp_perm requests).symm
  have hkinds' : ∀ r ∈ List.ofFn requests, r.decl.isWrappable := by
    simpa [List.forall_mem_ofFn_iff] using hkinds
  have hnames' : ∀ r ∈ List.ofFn requests, ∀ r' ∈ List.ofFn requests, r.AgreesOnName r' := by
    simpa only [List.forall_mem_ofFn_iff] using hnames
  constructor
  · rw [exists_run_error_iff, exists_run_error_iff, not_iff_not]
    constructor
    · rintro ⟨ctx', hctx'⟩
      refine exists_start_of_perm hperm.symm ?_ ?_ hctx'
      · exact fun r hr => hkinds' r (hperm.mem_iff.2 hr)
      · exact fun r hr r' hr' => hnames' r (hperm.mem_iff.2 hr) r' (hperm.mem_iff.2 hr')
    · rintro ⟨ctx, hctx⟩
      exact exists_start_of_perm hperm hkinds' hnames' hctx
  · intro outcome houtcome
    obtain ⟨ctx, hctx, rfl⟩ := run_eq_ok_iff.1 houtcome
    obtain ⟨ctx', hctx'⟩ := exists_start_of_perm hperm hkinds' hnames' hctx
    have hfulfil := (alike_of_perm hperm hnames' hctx hctx').fulfil
    refine ⟨Request.fulfil ctx ∘ requests, _, ?_, run_eq_ok_iff.2 ⟨ctx', hctx', rfl⟩, ?_⟩
    · exact List.map_ofFn
    · rw [hfulfil]
      exact List.map_ofFn

def crate : Declaration :=
  .cls { package := "music", simpleName := "Crate", typeParams := ["T"],
         properties := [{ name := "top", type := { name := "T" } }] }

/-- Two instances of a generic class, one inside the other. -/
def crates : Fin 2 → Request
  | 0 => .generics "LongCrate" crate [.long] []
  | 1 => .generics "NestedCrate" crate [{ name := "Crate", package := "music", args := [.long] }] []

theorem results_of_permuted_requests_of_crates :
    (∀ i, (crates i).decl.isWrappable) ∧ (∀ i j, (crates i).AgreesOnName (crates j)) ∧
      ∃ outcome, run (List.ofFn crates) [] false = .ok outcome ∧
        ∃ (results : Fin 2 → ExportResult) (permuted : Outcome),
          outcome.results = List.ofFn results ∧
            run (List.ofFn (crates ∘ Equiv.swap 0 1)) [] false = .ok permuted ∧
            permuted.results = List.ofFn (results ∘ Equiv.swap 0 1) := by
  have hkinds : ∀ i, (crates i).decl.isWrappable := by decide
  have hnames : ∀ i j, (crates i).AgreesOnName (crates j) := by decide
  obtain ⟨outcome, houtcome⟩ : ∃ outcome, run (List.ofFn crates) [] false = .ok outcome := ⟨_, rfl⟩
  exact ⟨hkinds, hnames, outcome, houtcome,
    (results_of_permuted_requests crates (Equiv.swap 0 1) [] false hkinds hnames).2 outcome
      houtcome⟩

end Session

end Facade
