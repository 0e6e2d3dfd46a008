import Facade.Wrapper.Member
import Mathlib.Computability.StateTransition
import Mathlib.Data.Finset.Card
import Mathlib.Order.Bounds.Defs

/-!
# Fresh names

A name that is not taken is found by appending underscores to a preferred one.

**Input.**  A preferred name and the names that are taken, in any order.

**Algorithm.**  Nothing bounds the number of underscores beforehand.  The library tries as many as
there are taken names, which is enough: names with different numbers of underscores differ, so
each further round needs another taken name.

**Results.**
* `exists_passed_of_reaches`: what the search has gone through after any number of rounds.
* `Passed.le_card`: there are no more rounds than taken names.
* `eval_lengthen?`: the search without bound ends, and the bounded one finds the same name.
* `exists_isLeast_fresh`: a fresh name has the least number of underscores.
-/

namespace Facade
namespace Name

section Underscores

theorem pushn_succ (name : String) (n : Nat) :
    name.pushn '_' (n + 1) = name.pushn '_' n ++ "_" := by
  simp [String.pushn, Nat.repeat, String.push_eq_append]

theorem toList_pushn (name : String) (n : Nat) :
    (name.pushn '_' n).toList = name.toList ++ List.replicate n '_' := by
  induction n with
  | zero => simp [String.pushn, Nat.repeat]
  | succ n ih => simp [pushn_succ, ih, List.replicate_succ']

/-- Different numbers of underscores make different names. -/
theorem pushn_injective (name : String) :
    Function.Injective (name.pushn '_') := by
  intro m n h
  have hlength := congrArg String.length h
  simp only [String.length_pushn] at hlength
  omega

end Underscores

section Search

open StateTransition

variable {preferred : String} {taken : List String}

/-- One round of the search: a taken name gets an underscore. -/
def lengthen? (taken : List String) (name : String) : Option String :=
  if name ∈ taken then some (name ++ "_") else none

/-- A name is lengthened exactly if it is taken. -/
theorem lengthen?_eq_some_iff {name longer : String} :
    lengthen? taken name = some longer ↔ name ∈ taken ∧ longer = name ++ "_" := by
  simp [lengthen?, eq_comm]

theorem lengthen?_eq_none_iff {name : String} :
    lengthen? taken name = none ↔ name ∉ taken := by
  simp [lengthen?]

/-- The name has `n` underscores after the preferred one, and with fewer of them it is taken. -/
structure Passed (preferred : String) (taken : List String) (n : Nat) (name : String) : Prop where
  eq_pushn : name = preferred.pushn '_' n
  fewer : ∀ m < n, preferred.pushn '_' m ∈ taken

/-- One step of the search passes one more name that is taken. -/
theorem Passed.next {n : Nat} {name longer : String}
    (hpassed : Passed preferred taken n name)
    (h : lengthen? taken name = some longer) :
    Passed preferred taken (n + 1) longer := by
  obtain ⟨rfl, hfewer⟩ := hpassed
  obtain ⟨htaken, rfl⟩ := lengthen?_eq_some_iff.1 h
  refine ⟨(pushn_succ preferred n).symm, fun m hm => ?_⟩
  rcases Nat.lt_succ_iff_lt_or_eq.1 hm with hlt | rfl
  · exact hfewer m hlt
  · exact htaken

/-- Every name that the search reaches has passed taken names only. -/
theorem exists_passed_of_reaches {name : String}
    (h : Reaches (lengthen? taken) preferred name) :
    ∃ n, Passed preferred taken n name := by
  induction h with
  | refl => exact ⟨0, rfl, fun m hm => absurd hm m.not_lt_zero⟩
  | tail _ hstep ih =>
      obtain ⟨n, hpassed⟩ := ih
      exact ⟨n + 1, hpassed.next hstep⟩

/-- The names that the search has gone through are taken and differ from each other. -/
theorem Passed.le_card {n : Nat} {name : String}
    (h : Passed preferred taken n name) :
    n ≤ taken.toFinset.card := by
  have hsubset : (Finset.range n).image (preferred.pushn '_') ⊆ taken.toFinset := by
    intro other hother
    obtain ⟨m, hm, rfl⟩ := Finset.mem_image.1 hother
    exact List.mem_toFinset.2 (h.fewer m (Finset.mem_range.1 hm))
  calc n = ((Finset.range n).image (preferred.pushn '_')).card := by
        rw [Finset.card_image_of_injective _ (pushn_injective preferred), Finset.card_range]
    _ ≤ taken.toFinset.card := Finset.card_le_card hsubset

/-- The bounded search goes through rounds of the search without bound. -/
theorem reaches_freshFrom (tries : Nat) (name : String) :
    Reaches (lengthen? taken) name (freshFrom taken tries name) := by
  induction tries generalizing name with
  | zero => exact .refl
  | succ tries ih =>
      rw [freshFrom]
      split
      · next htaken => exact .head (lengthen?_eq_some_iff.2 ⟨htaken, rfl⟩) (ih (name ++ "_"))
      · exact .refl

/-- A bounded search that gives up has made all its rounds. -/
theorem freshFrom_of_mem {tries n : Nat}
    (h : freshFrom taken tries (preferred.pushn '_' n) ∈ taken) :
    freshFrom taken tries (preferred.pushn '_' n) = preferred.pushn '_' (n + tries) := by
  induction tries generalizing n with
  | zero => rfl
  | succ tries ih =>
      rw [freshFrom] at h ⊢
      split at h
      · next htaken =>
          rw [if_pos htaken, ← pushn_succ]
          rw [← pushn_succ] at h
          rw [ih h, Nat.add_right_comm, Nat.add_assoc]
      · next huntaken => exact absurd h huntaken

/-- The search with as many rounds as taken names does not give up: else one more round would need
one more taken name. -/
theorem fresh_not_mem (preferred : String) (taken : List String) :
    fresh preferred taken ∉ taken := by
  intro htaken
  have hgivesUp : fresh preferred taken = preferred.pushn '_' taken.length := by
    have h := @freshFrom_of_mem preferred taken taken.length 0 htaken
    rwa [Nat.zero_add] at h
  obtain ⟨n, hpassed⟩ := exists_passed_of_reaches (@reaches_freshFrom taken taken.length preferred)
  have hn : n = taken.length :=
    pushn_injective preferred (hpassed.eq_pushn.symm.trans hgivesUp)
  have hnext := hpassed.next (lengthen?_eq_some_iff.2 ⟨htaken, rfl⟩)
  have hle := hnext.le_card.trans taken.toFinset_card_le
  omega

/-- The search without bound ends, in the name that the bounded one finds. -/
theorem eval_lengthen? (preferred : String) (taken : List String) :
    eval (lengthen? taken) preferred = Part.some (fresh preferred taken) := by
  refine Part.eq_some_iff.2 (mem_eval.2 ⟨reaches_freshFrom taken.length preferred, ?_⟩)
  exact lengthen?_eq_none_iff.2 (fresh_not_mem preferred taken)

/-- A fresh name is the preferred name with the least number of underscores that makes it free,
which is at most the number of names taken. -/
theorem exists_isLeast_fresh (preferred : String) (taken : List String) :
    ∃ n ≤ taken.toFinset.card, fresh preferred taken = preferred.pushn '_' n ∧
      IsLeast {k | preferred.pushn '_' k ∉ taken} n := by
  obtain ⟨n, hpassed⟩ := exists_passed_of_reaches (@reaches_freshFrom taken taken.length preferred)
  have hfresh : fresh preferred taken = preferred.pushn '_' n := hpassed.eq_pushn
  have huntaken : preferred.pushn '_' n ∉ taken := hfresh ▸ fresh_not_mem preferred taken
  refine ⟨n, hpassed.le_card, hfresh, huntaken, fun m hm => ?_⟩
  by_contra hlt
  exact hm (hpassed.fewer m (Nat.lt_of_not_le hlt))

end Search

/-- A fresh name starts like the preferred one. -/
theorem head?_fresh {preferred : String} {c : Char} (taken : List String)
    (h : preferred.toList.head? = some c) :
    (fresh preferred taken).toList.head? = some c := by
  obtain ⟨n, -, hfresh, -⟩ := exists_isLeast_fresh preferred taken
  rw [hfresh, toList_pushn, List.head?_append, h]
  rfl

end Name

theorem Wrapper.head?_resultName (params : List Parameter) :
    (resultName params).toList.head? = some 'r' :=
  Name.head?_fresh _ rfl

end Facade
