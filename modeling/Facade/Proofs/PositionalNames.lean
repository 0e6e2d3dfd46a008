import Facade.Proofs.Mentions
import Mathlib.Computability.StateTransition
import Mathlib.Data.List.Induction
import Mathlib.Data.List.Shortlex
import Mathlib.Data.String.Basic
import Mathlib.Logic.Relation

/-!
# Names by position

Short names number the words over the letters `a` to `z`, the shorter ones first and those of one
length alphabetically.  The parameters of a lambda are the first of them that the expression it
calls does not mention.

**Input.**  A position; or a number of parameters and the text of the expression.

**Algorithm.**  The parameters are searched for round by round, and nothing bounds the number of
rounds beforehand.  The library looks at as many positions as there are parameters and identifiers,
which is enough, since no two positions share a name.

**Results.**
* `exists_shortLetters`: every word is a short name.
* `lt_iff_shortlex`: short names are ordered like their positions.
* `short_names_order_words`: positions and words correspond, in order.
* `Search.Sound.runs`: what a search has found after any number of rounds.
* `Search.runs_untaken`: the bounded search goes through the rounds of the unbounded one.
* `lambda_parameters_are_first_unmentioned`: the parameters of a lambda.
-/

namespace Facade
namespace Name

section Order

/-- The letters that short names are written in. -/
def IsLetter (c : Char) : Prop :=
  'a' ≤ c ∧ c ≤ 'z'

instance (c : Char) : Decidable (IsLetter c) :=
  inferInstanceAs (Decidable (_ ∧ _))

theorem isLetter_iff {c : Char} :
    IsLetter c ↔ 97 ≤ c.toNat ∧ c.toNat ≤ 122 :=
  Iff.rfl

theorem letter_eq_of_toNat {c : Char} {i : Nat}
    (h : c.toNat = 97 + i % 26) :
    letter i = c := by
  rw [← Char.toNat_inj, toNat_letter, h]

theorem letter_lt_letter_iff {i j : Nat} :
    letter i < letter j ↔ i % 26 < j % 26 := by
  have hlt : letter i < letter j ↔ (letter i).toNat < (letter j).toNat := Iff.rfl
  rw [hlt, toNat_letter, toNat_letter]
  omega

theorem shortLetters_of_lt {i : Nat}
    (h : i < 26) :
    shortLetters i = [letter i] := by
  rw [shortLetters, if_pos h]

/-- From the twenty-seventh position on, a name is an earlier name and one more letter. -/
theorem shortLetters_of_le {i : Nat}
    (h : 26 ≤ i) :
    shortLetters i = shortLetters (i / 26 - 1) ++ [letter i] := by
  rw [shortLetters, if_neg (by omega)]

/-- Every word is the short name of some position. -/
theorem exists_shortLetters {word : List Char}
    (hne : word ≠ [])
    (hword : ∀ c ∈ word, IsLetter c) :
    ∃ i, shortLetters i = word := by
  -- The last letter is the remainder, so the word is taken apart from the right.
  induction word using List.reverseRecOn with
  | nil => exact absurd rfl hne
  | append_singleton front c ih =>
      obtain ⟨hlow, hhigh⟩ := isLetter_iff.1 (hword c (by simp))
      by_cases hfront : front = []
      · subst hfront
        refine ⟨c.toNat - 97, ?_⟩
        rw [shortLetters_of_lt (by omega), letter_eq_of_toNat (c := c) (by omega), List.nil_append]
      · obtain ⟨j, hj⟩ := ih hfront fun d hd => hword d (by simp [hd])
        refine ⟨26 * (j + 1) + (c.toNat - 97), ?_⟩
        have hquotient : (26 * (j + 1) + (c.toNat - 97)) / 26 - 1 = j := by omega
        rw [shortLetters_of_le (by omega), hquotient, hj, letter_eq_of_toNat (c := c) (by omega)]

/-- A last letter does not change which of two words comes first. -/
theorem shortlex_append_singleton {s t : List Char}
    (h : List.Shortlex (· < ·) s t) (c d : Char) :
    List.Shortlex (· < ·) (s ++ [c]) (t ++ [d]) := by
  rcases List.shortlex_def.1 h with hlength | ⟨hlength, hlex⟩
  · exact .of_length_lt (by simpa using hlength)
  · refine .of_lex (by simpa using hlength) ?_
    clear h
    induction hlex with
    | nil => simp at hlength
    | cons _ ih => exact .cons (ih (by simpa using hlength))
    | rel hlt => exact .rel hlt

/-- The induction follows the recursion of short names: two positions either differ in all but the
last letter, or in the last letter alone. -/
theorem shortlex_of_lt {i j : Nat}
    (h : i < j) :
    List.Shortlex (· < ·) (shortLetters i) (shortLetters j) := by
  induction j using Nat.strongRecOn generalizing i with
  | ind j ih =>
      by_cases hj : j < 26
      · rw [shortLetters_of_lt hj, shortLetters_of_lt (h.trans hj), List.shortlex_singleton_iff,
          letter_lt_letter_iff]
        omega
      · rw [shortLetters_of_le (not_lt.1 hj)]
        by_cases hi : i < 26
        · rw [shortLetters_of_lt hi]
          have hpos := List.length_pos_iff.2 (shortLetters_ne_nil (j / 26 - 1))
          exact .of_length_lt (by simpa using hpos)
        · rw [shortLetters_of_le (not_lt.1 hi)]
          by_cases hfront : i / 26 - 1 < j / 26 - 1
          · exact shortlex_append_singleton (ih (j / 26 - 1) (by omega) hfront) _ _
          · have hsame : i / 26 - 1 = j / 26 - 1 := by omega
            rw [hsame]
            refine List.Shortlex.append_left ?_ _
            rw [List.shortlex_singleton_iff, letter_lt_letter_iff]
            omega

/-- Positions are ordered as their names, by length and then by the alphabet. -/
theorem lt_iff_shortlex {i j : Nat} :
    i < j ↔ List.Shortlex (· < ·) (shortLetters i) (shortLetters j) := by
  refine ⟨shortlex_of_lt, fun h => ?_⟩
  by_contra hnot
  rcases Nat.lt_or_eq_of_le (not_lt.1 hnot) with hlt | rfl
  · exact Std.Asymm.asymm _ _ h (shortlex_of_lt hlt)
  · exact Std.Irrefl.irrefl _ h

theorem shortlex_iff_precedes {s t : String} :
    List.Shortlex (· < ·) s.toList t.toList ↔
      s.length < t.length ∨ s.length = t.length ∧ s < t := by
  rw [List.shortlex_def, String.length_toList, String.length_toList, String.lt_iff_toList_lt]
  exact Iff.rfl

/-- Every word of small letters is the name of a position, and no other text is. -/
theorem exists_short_eq_iff {word : String} :
    (∃ i, short i = word) ↔ word ≠ "" ∧ ∀ c ∈ word.toList, IsLetter c := by
  constructor
  · rintro ⟨i, rfl⟩
    rw [short, ne_eq, String.ofList_eq_empty_iff, String.toList_ofList]
    exact ⟨shortLetters_ne_nil i, fun c hc => isLetter_iff.2 (toNat_of_mem_shortLetters hc)⟩
  · rintro ⟨hne, hword⟩
    have hletters : word.toList ≠ [] := by simpa using hne
    obtain ⟨i, hi⟩ := exists_shortLetters hletters hword
    exact ⟨i, by rw [short, hi, String.ofList_toList]⟩

/-- Short names number the words over the letters `a` to `z`, each word once: shorter words first,
words of one length alphabetically. -/
theorem short_names_order_words :
    (∀ word : String, (∃! i, short i = word) ↔ word ≠ "" ∧ ∀ c ∈ word.toList, IsLetter c) ∧
    ∀ i j : Nat, i < j ↔
      (short i).length < (short j).length ∨
        (short i).length = (short j).length ∧ short i < short j := by
  refine ⟨fun word => ?_, fun i j => ?_⟩
  · rw [← exists_short_eq_iff]
    refine ⟨ExistsUnique.exists, fun ⟨i, hi⟩ => ⟨i, hi, fun j hj => ?_⟩⟩
    exact short_injective (hj.trans hi.symm)
  · rw [lt_iff_shortlex, ← shortlex_iff_precedes, short, short, String.toList_ofList,
      String.toList_ofList]

end Order

section Freshness

/-- The search for untaken names: those found so far, and the position to look at next. -/
structure Search where
  names : List String := []
  position : Nat := 0
deriving DecidableEq, Repr

namespace Search

variable {taken : List String} {count : Nat}

/-- One round: as long as names are wanting, the name of the next position is added unless it is
taken. -/
def next? (taken : List String) (count : Nat) (s : Search) : Option Search :=
  if s.names.length < count then
    some
      { names := if short s.position ∈ taken then s.names else s.names ++ [short s.position]
        position := s.position + 1 }
  else none

/-- A search runs round after round, without a bound on their number. -/
def Runs (taken : List String) (count : Nat) : Search → Search → Prop :=
  Relation.ReflTransGen fun s t => s.next? taken count = some t

/-- A search ends in a state after which there is no round. -/
def Ends (taken : List String) (count : Nat) (s final : Search) : Prop :=
  s.Runs taken count final ∧ final.next? taken count = none

theorem Runs.refl (s : Search) :
    s.Runs taken count s :=
  Relation.ReflTransGen.refl

theorem next?_eq_none_iff {s : Search} :
    s.next? taken count = none ↔ count ≤ s.names.length := by
  simp [next?]

/-- Every state has at most one next state, so a search has at most one end. -/
theorem Ends.unique {s t u : Search}
    (ht : s.Ends taken count t)
    (hu : s.Ends taken count u) :
    t = u :=
  Part.mem_unique (StateTransition.mem_eval.2 ht) (StateTransition.mem_eval.2 hu)

/-- What one round keeps: the names are those of all positions so far that are not taken. -/
def Sound (taken : List String) (s : Search) : Prop :=
  s.names = ((List.range s.position).map short).filter (· ∉ taken)

/-- A step of the search skips exactly the names that are taken. -/
theorem Sound.next {s t : Search}
    (hs : s.Sound taken)
    (h : s.next? taken count = some t) :
    t.Sound taken := by
  rw [next?] at h
  split at h
  · obtain rfl := Option.some.inj h
    rw [Sound] at hs
    by_cases htaken : short s.position ∈ taken
    · simp [Sound, List.range_succ, htaken, hs]
    · simp [Sound, List.range_succ, htaken, hs]
  · simp at h

/-- A run of the search has skipped exactly the names that are taken. -/
theorem Sound.runs {s t : Search}
    (hs : s.Sound taken)
    (h : s.Runs taken count t) :
    t.Sound taken := by
  induction h with
  | refl => exact hs
  | tail _ hstep ih => exact ih.next hstep

/-- A bounded search that finds all it looks for goes through the rounds of the search without
bound.  The names found before are kept general, since every round may add to them. -/
theorem runs_untaken {wanted tries : Nat} {s : Search}
    (hfound : (untaken taken wanted tries s.position).length = wanted) :
    ∃ position ≤ s.position + tries, s.Runs taken (s.names.length + wanted)
      ⟨s.names ++ untaken taken wanted tries s.position, position⟩ := by
  induction tries generalizing wanted s with
  | zero =>
      cases wanted with
      | zero => exact ⟨s.position, le_rfl, by simpa [untaken] using Runs.refl s⟩
      | succ wanted => simp [untaken] at hfound
  | succ tries ih =>
      cases wanted with
      | zero => exact ⟨s.position, by omega, by simpa [untaken] using Runs.refl s⟩
      | succ wanted =>
          have hwanting : s.names.length < s.names.length + (wanted + 1) := by omega
          by_cases htaken : short s.position ∈ taken
          · simp only [untaken, htaken, if_true] at hfound ⊢
            obtain ⟨position, hle, hrun⟩ := ih (s := ⟨s.names, s.position + 1⟩) hfound
            refine ⟨position, by dsimp only at hle; omega, .head ?_ hrun⟩
            simp [next?, hwanting, htaken]
          · simp only [untaken, htaken, if_false, List.length_cons, Nat.add_right_cancel_iff]
              at hfound ⊢
            obtain ⟨position, hle, hrun⟩ :=
              ih (s := ⟨s.names ++ [short s.position], s.position + 1⟩) hfound
            have hcount : (s.names ++ [short s.position]).length + wanted =
                s.names.length + (wanted + 1) := by
              simp only [List.length_append, List.length_singleton]
              omega
            simp only [hcount, List.append_assoc, List.singleton_append] at hrun
            refine ⟨position, by dsimp only at hle; omega, .head ?_ hrun⟩
            simp [next?, hwanting, htaken]

end Search

/-- The search for the parameters of a lambda ends, and what it has found then are the
parameters. -/
theorem ends_lambdaParameters (count : Nat) (target : String) :
    ∃ position ≤ count + (Text.identifiers target).length,
      Search.Ends (Text.identifiers target) count {} ⟨lambdaParameters count target, position⟩ := by
  have hlength := length_lambdaParameters count target
  obtain ⟨position, hle, hrun⟩ := Search.runs_untaken (s := {}) hlength
  simp only [List.length_nil, Nat.zero_add, List.nil_append] at hle hrun
  exact ⟨position, hle, hrun, Search.next?_eq_none_iff.2 hlength.ge⟩

/-- The search for the parameters of a lambda ends, always in the same state: it has found as many
names as asked for, the first ones that are no identifiers of the text.  None of them is a whole
word of the text. -/
theorem lambda_parameters_are_first_unmentioned (count : Nat) (target : String) :
    (∃ position ≤ count + (Text.identifiers target).length,
      (∀ s, Search.Ends (Text.identifiers target) count {} s ↔
        s = ⟨lambdaParameters count target, position⟩) ∧
      lambdaParameters count target =
        ((List.range position).map short).filter (· ∉ Text.identifiers target)) ∧
    (lambdaParameters count target).length = count ∧
    (lambdaParameters count target).Nodup ∧
    ∀ name ∈ lambdaParameters count target, ¬ Text.HasWord name.toList target.toList := by
  obtain ⟨position, hle, hends⟩ := ends_lambdaParameters count target
  have hsound : Search.Sound (Text.identifiers target) ⟨lambdaParameters count target, position⟩ :=
    Search.Sound.runs (s := {}) rfl hends.1
  refine ⟨⟨position, hle, fun s => ⟨fun hs => hs.unique hends, fun hs => hs ▸ hends⟩, hsound⟩,
    length_lambdaParameters count target, nodup_lambdaParameters count target, fun name hname => ?_⟩
  exact not_hasWord_of_mem_lambdaParameters hname

end Freshness

end Name
end Facade
