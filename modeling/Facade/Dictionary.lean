/-!
# Dictionaries

A dictionary is a list of keys with values in the order in which the keys came first.

**Results.**
* `get?_put_self` and `get?_put_of_ne`: after a key is set, it has the new value and all others keep
  theirs.
* `keys_put`: setting a key that is there keeps the order of the keys, a new one comes last.
* `nodup_keys_put` and `nodup_keys_ofList`: no key comes twice.
-/

namespace Facade

/-- Keys with values, in the order of their first insertion. -/
abbrev Dictionary (κ α : Type) := List (κ × α)

namespace Dictionary

variable {κ α : Type} [DecidableEq κ]

/-- The value of a key. -/
def get? (d : Dictionary κ α) (key : κ) : Option α :=
  (d.find? fun entry => entry.1 = key).map Prod.snd

/-- Whether a key has a value. -/
def has (d : Dictionary κ α) (key : κ) : Bool :=
  d.any fun entry => entry.1 = key

/-- Sets the value of a key. -/
def put (d : Dictionary κ α) (key : κ) (value : α) : Dictionary κ α :=
  match d with
  | [] => [(key, value)]
  | entry :: rest =>
      if entry.1 = key then (key, value) :: rest else entry :: put rest key value

/-- Sets the value of a key that has none. -/
def putNew (d : Dictionary κ α) (key : κ) (value : α) : Dictionary κ α :=
  if d.has key then d else d ++ [(key, value)]

/-- The dictionary of a list of entries; the last value of a key counts. -/
def ofList (entries : List (κ × α)) : Dictionary κ α :=
  entries.foldl (fun d entry => d.put entry.1 entry.2) []

/-- The keys in order. -/
def keys (d : Dictionary κ α) : List κ :=
  d.map Prod.fst

theorem get?_put_self
    (d : Dictionary κ α) (key : κ) (value : α) :
    (d.put key value).get? key = some value := by
  induction d with
  | nil => simp [put, get?]
  | cons entry rest ih =>
      by_cases h : entry.1 = key
      · simp [put, get?, h]
      · simpa [put, get?, h] using ih

/-- A new value leaves the values of all other keys alone. -/
theorem get?_put_of_ne
    (d : Dictionary κ α) {key other : κ} (value : α)
    (hne : other ≠ key) :
    (d.put key value).get? other = d.get? other := by
  induction d with
  | nil => simp [put, get?, hne.symm]
  | cons entry rest ih =>
      by_cases h : entry.1 = key
      · simp [put, get?, h, hne.symm]
      · by_cases ho : entry.1 = other
        · subst ho
          simp [put, get?, h]
        · simpa [put, get?, h, ho] using ih

/-- A key that is put again keeps its place; a new one comes last. -/
theorem keys_put
    (d : Dictionary κ α) (key : κ) (value : α) :
    (d.put key value).keys = if key ∈ d.keys then d.keys else d.keys ++ [key] := by
  induction d with
  | nil => simp [put, keys]
  | cons entry rest ih =>
      by_cases h : entry.1 = key
      · simp [put, keys, h]
      · have h' : ¬ key = entry.1 := fun e => h e.symm
        simp only [keys] at ih
        simp only [put, keys, h, if_false, List.map_cons, List.mem_cons, h', false_or]
        rw [ih]
        by_cases hm : key ∈ rest.map Prod.fst
        · simp only [hm, if_true]
        · simp only [hm, if_false, List.cons_append]

theorem has_eq_true_iff
    {d : Dictionary κ α} {key : κ} :
    d.has key = true ↔ key ∈ d.keys := by
  simp [has, keys]

theorem nodup_keys_put
    {d : Dictionary κ α} (key : κ) (value : α)
    (h : d.keys.Nodup) :
    (d.put key value).keys.Nodup := by
  rw [keys_put]
  split
  · exact h
  · next hnot =>
      rw [List.nodup_append]
      refine ⟨h, by simp, ?_⟩
      intro a ha b hb hab
      exact hnot (List.mem_singleton.1 hb ▸ hab ▸ ha)

/-- However often a key is listed, it is one key of the dictionary. -/
theorem nodup_keys_ofList
    (entries : List (κ × α)) :
    (ofList entries).keys.Nodup := by
  suffices h : ∀ d : Dictionary κ α, d.keys.Nodup →
      (entries.foldl (fun d entry => d.put entry.1 entry.2) d).keys.Nodup from
    h [] List.nodup_nil
  induction entries with
  | nil => exact fun d hd => hd
  | cons entry rest ih => exact fun d hd => ih _ (nodup_keys_put entry.1 entry.2 hd)

end Dictionary

end Facade
