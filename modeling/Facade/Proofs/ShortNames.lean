import Facade.Name
import Mathlib.Data.List.Nodup
import Mathlib.Data.List.Perm.Subperm

/-!
# Short names and lambda parameters

The short name of a position is a numeral in base 26 without a zero digit: the letters `a` to `z`
stand for 1 to 26.  Reading the numeral gives the position back, so different positions have
different names.

**Results.**
* `short_injective`: no two positions share a name.
* `length_lambdaParameters` and `nodup_lambdaParameters`: a lambda gets as many parameters as were
  asked for, and they are pairwise different.
-/

namespace Facade
namespace Name

/-- The number that letters stand for, read from left to right after `n`. -/
def numeral (n : Nat) (cs : List Char) : Nat :=
  cs.foldl (fun m c => 26 * m + (c.toNat - 96)) n

theorem toNat_letter (i : Nat) :
    (letter i).toNat = 97 + i % 26 := by
  have hlt : i % 26 < 26 := Nat.mod_lt _ (by omega)
  have hvalid : (97 + i % 26).isValidChar := by
    left
    omega
  rw [letter, Char.ofNat, dif_pos hvalid]
  rfl

/-- A short name is the numeral of its position. -/
theorem numeral_shortLetters (i : Nat) :
    numeral 0 (shortLetters i) = i + 1 := by
  induction i using Nat.strongRecOn with
  | ind i ih =>
      rw [shortLetters]
      split
      · next hlt =>
          simp only [numeral, List.foldl_cons, List.foldl_nil, toNat_letter]
          omega
      · next hge =>
          have hrec := ih (i / 26 - 1) (by omega)
          simp only [numeral] at hrec
          simp only [numeral, List.foldl_append, hrec, List.foldl_cons, List.foldl_nil,
            toNat_letter]
          omega

/-- Different positions have different names. -/
theorem short_injective {i j : Nat}
    (h : short i = short j) :
    i = j := by
  have hletters : shortLetters i = shortLetters j := String.ofList_injective h
  have hi := numeral_shortLetters i
  rw [hletters, numeral_shortLetters] at hi
  omega

/-- Short names are written in lower-case letters. -/
theorem toNat_of_mem_shortLetters {i : Nat} {c : Char}
    (h : c ∈ shortLetters i) :
    97 ≤ c.toNat ∧ c.toNat ≤ 122 := by
  induction i using Nat.strongRecOn with
  | ind i ih =>
      rw [shortLetters] at h
      split at h
      · obtain rfl := List.mem_singleton.1 h
        rw [toNat_letter]
        omega
      · next hge =>
          rcases List.mem_append.1 h with h | h
          · exact ih (i / 26 - 1) (by omega) h
          · obtain rfl := List.mem_singleton.1 h
            rw [toNat_letter]
            omega

theorem nodup_map_short (n : Nat) :
    ((List.range n).map short).Nodup :=
  List.nodup_range.map fun _ _ h => short_injective h

/-- At most as many names are skipped as there are taken ones. -/
theorem le_length_filter_short (taken : List String) (count : Nat) :
    count ≤ (((List.range (count + taken.length)).map short).filter (· ∉ taken)).length := by
  set names := (List.range (count + taken.length)).map short with hnames
  have hskipped : (names.filter (· ∈ taken)).length ≤ taken.length := by
    have hnodup : (names.filter (· ∈ taken)).Nodup := (nodup_map_short _).filter _
    have hsub : names.filter (· ∈ taken) ⊆ taken := by
      intro x hx
      simpa using (List.mem_filter.1 hx).2
    exact (List.subperm_of_subset hnodup hsub).length_le
  have hall : names.length = count + taken.length := by simp [hnames]
  have hsplit := List.length_eq_length_filter_add (l := names) (fun x => decide (x ∈ taken))
  have hsame : names.filter (fun x => !decide (x ∈ taken)) = names.filter (· ∉ taken) :=
    List.filter_congr fun x _ => by simp
  rw [hsame] at hsplit
  omega

/-- A lambda gets as many parameters as asked for. -/
theorem length_lambdaParameters (count : Nat) (target : String) :
    (lambdaParameters count target).length = count := by
  rw [lambdaParameters_eq_take, List.length_take]
  have := le_length_filter_short (Text.identifiers target) count
  omega

/-- The parameters of a lambda are different. -/
theorem nodup_lambdaParameters (count : Nat) (target : String) :
    (lambdaParameters count target).Nodup := by
  rw [lambdaParameters_eq_take]
  exact ((nodup_map_short _).filter _).sublist (List.take_sublist _ _)

theorem exists_short_of_mem_lambdaParameters
    {count : Nat} {target name : String}
    (h : name ∈ lambdaParameters count target) :
    ∃ i, name = short i := by
  rw [lambdaParameters_eq_take] at h
  obtain ⟨i, _, rfl⟩ := List.mem_map.1 (List.mem_filter.1 (List.mem_of_mem_take h)).1
  exact ⟨i, rfl⟩

end Name
end Facade
