import Facade.Outcome
import Mathlib.Data.List.Forall2

/-!
# Lists of steps that may fail

A step that is made for every member of a list gives a list of the same length, or fails with the
first failure.

**Results.**
* `mapM_eq_ok_iff`: the results belong to the members one by one.
* `exists_of_mem_mapM`: every result comes from a member.
* `foldlM_invariant`: what every step keeps, the whole run keeps.
* `exists_mapM` and `exists_foldlM`: a run fails only if one of its steps does.
* `forM_eq_error_iff`: checks that are made one after the other fail with the first failure.
* `verdict_mapM` and `verdict_foldlM`: whether a run succeeds is decided by such checks.
-/

namespace Facade
namespace Outcome

variable {ε α β : Type}

/-- Steps in a row succeed exactly if each of them does. -/
theorem mapM_eq_ok_iff {f : α → Except ε β} {l : List α} {l' : List β} :
    l.mapM f = .ok l' ↔ List.Forall₂ (fun a b => f a = .ok b) l l' := by
  induction l generalizing l' with
  | nil => cases l' <;> simp [pure, Except.pure]
  | cons a l ih =>
      rw [List.mapM_cons, bind_eq_ok_iff]
      constructor
      · rintro ⟨b, hb, h⟩
        obtain ⟨bs, hbs, h⟩ := bind_eq_ok_iff.1 h
        obtain rfl : b :: bs = l' := Except.ok.inj h
        exact .cons hb (ih.1 hbs)
      · rintro (_ | ⟨hb, hrest⟩)
        exact ⟨_, hb, bind_eq_ok_iff.2 ⟨_, ih.2 hrest, rfl⟩⟩

theorem exists_left_of_forall₂ {r : α → β → Prop} {l : List α} {l' : List β} {b : β}
    (h : List.Forall₂ r l l')
    (hb : b ∈ l') :
    ∃ a ∈ l, r a b := by
  induction h with
  | nil => exact absurd hb List.not_mem_nil
  | cons hab hrest ih =>
      rcases List.mem_cons.1 hb with rfl | hb
      · exact ⟨_, List.mem_cons_self, hab⟩
      · obtain ⟨a, ha, hr⟩ := ih hb
        exact ⟨a, List.mem_cons_of_mem _ ha, hr⟩

/-- Two lists that are related to a third one are related to each other. -/
theorem forall₂_of_common {γ : Type} {r : α → β → Prop} {s : α → γ → Prop} {t : β → γ → Prop}
    {l : List α} {bs : List β} {cs : List γ}
    (hb : List.Forall₂ r l bs)
    (hc : List.Forall₂ s l cs)
    (hstep : ∀ a b c, r a b → s a c → t b c) :
    List.Forall₂ t bs cs := by
  induction hb generalizing cs with
  | nil =>
      cases hc
      exact .nil
  | cons hab _ ih =>
      cases hc with
      | cons hac hrest => exact .cons (hstep _ _ _ hab hac) (ih hrest)

theorem forall₂_imp_of_mem {r s : α → β → Prop} {l : List α} {l' : List β}
    (h : List.Forall₂ r l l')
    (hstep : ∀ a ∈ l, ∀ b, r a b → s a b) :
    List.Forall₂ s l l' := by
  have hboth := (List.forall₂_and_left l l').2 ⟨fun a ha => ha, h⟩
  exact hboth.imp fun a b hab => hstep a hab.1 b hab.2

/-- Whatever is related to two lists in a row is made of two parts. -/
theorem forall₂_append_left_iff {r : α → β → Prop} {l l' : List α} {bs : List β} :
    List.Forall₂ r (l ++ l') bs ↔
      ∃ cs cs', List.Forall₂ r l cs ∧ List.Forall₂ r l' cs' ∧ bs = cs ++ cs' := by
  constructor
  · intro h
    induction l generalizing bs with
    | nil => exact ⟨[], bs, .nil, h, rfl⟩
    | cons a rest ih =>
        obtain ⟨b, bs', hab, hrest, rfl⟩ := List.forall₂_cons_left_iff.1 h
        obtain ⟨cs, cs', hcs, hcs', rfl⟩ := ih hrest
        exact ⟨b :: cs, cs', .cons hab hcs, hcs', rfl⟩
  · rintro ⟨cs, cs', hcs, hcs', rfl⟩
    exact List.rel_append hcs hcs'

/-- Members of two lists that go together one by one have a property together. -/
theorem exists_mem_iff_of_forall₂ {r : α → β → Prop} {P : α → Prop} {Q : β → Prop} {l : List α}
    {l' : List β}
    (h : List.Forall₂ r l l')
    (hiff : ∀ a ∈ l, ∀ b, r a b → (P a ↔ Q b)) :
    (∃ a ∈ l, P a) ↔ ∃ b ∈ l', Q b := by
  induction h with
  | nil => simp
  | cons hab _ ih =>
      obtain ⟨ha, hrest⟩ := List.forall_mem_cons.1 hiff
      rw [List.exists_mem_cons_iff, List.exists_mem_cons_iff, ha _ hab, ih hrest]

theorem exists_ok_of_any {x : Except ε α} {p : α → Bool}
    (h : x.toOption.any p = true) :
    ∃ a, x = .ok a ∧ p a = true := by
  cases x with
  | error e => simp [Except.toOption] at h
  | ok a => exact ⟨a, rfl, h⟩

theorem exists_of_mem_mapM {f : α → Except ε β} {l : List α} {l' : List β} {b : β}
    (h : l.mapM f = .ok l')
    (hb : b ∈ l') :
    ∃ a ∈ l, f a = .ok b := by
  obtain ⟨a, ha, hab⟩ := exists_left_of_forall₂ (mapM_eq_ok_iff.1 h) hb
  exact ⟨a, ha, hab⟩

/-- What one step preserves, a run preserves. -/
theorem foldlM_invariant {step : β → α → Except ε β} {P : β → Prop} {l : List α}
    (hstep : ∀ b, ∀ a ∈ l, ∀ b', P b → step b a = .ok b' → P b') :
    ∀ b b', P b → l.foldlM step b = .ok b' → P b' := by
  induction l with
  | nil =>
      intro b b' hb h
      obtain rfl := Except.ok.inj h
      exact hb
  | cons a rest ih =>
      intro b b' hb h
      rw [List.foldlM_cons] at h
      obtain ⟨next, hnext, h⟩ := bind_eq_ok_iff.1 h
      refine ih (fun b a ha => hstep b a (List.mem_cons_of_mem _ ha)) next b' ?_ h
      exact hstep b a List.mem_cons_self next hb hnext

/-- Two steps in a row succeed if the first one does and the second one can. -/
theorem exists_bind {x : Except ε α} {next : α → Except ε β} {a : α}
    (h : x = .ok a)
    (hnext : ∃ b, next a = .ok b) :
    ∃ b, (x >>= next) = .ok b := by
  obtain ⟨b, hb⟩ := hnext
  exact ⟨b, bind_eq_ok_iff.2 ⟨a, h, hb⟩⟩

/-- Steps in a row succeed if each of them can. -/
theorem exists_mapM {f : α → Except ε β} {l : List α}
    (h : ∀ a ∈ l, ∃ b, f a = .ok b) :
    ∃ l', l.mapM f = .ok l' := by
  induction l with
  | nil => exact ⟨[], rfl⟩
  | cons a rest ih =>
      obtain ⟨b, hb⟩ := h a List.mem_cons_self
      obtain ⟨bs, hbs⟩ := ih fun a' ha' => h a' (List.mem_cons_of_mem _ ha')
      exact ⟨b :: bs, mapM_eq_ok_iff.2 (.cons hb (mapM_eq_ok_iff.1 hbs))⟩

theorem exists_foldlM {step : β → α → Except ε β} {l : List α}
    (h : ∀ b, ∀ a ∈ l, ∃ b', step b a = .ok b') (b : β) :
    ∃ b', l.foldlM step b = .ok b' := by
  induction l generalizing b with
  | nil => exact ⟨b, rfl⟩
  | cons a rest ih =>
      obtain ⟨next, hnext⟩ := h b a List.mem_cons_self
      rw [List.foldlM_cons]
      exact exists_bind hnext (ih (fun b a' ha' => h b a' (List.mem_cons_of_mem _ ha')) next)

section Verdict

/-- Whether a step succeeds, whatever its result. -/
def verdict (x : Except ε α) : Except ε Unit :=
  x.map fun _ => ()

@[simp] theorem verdict_ok (a : α) :
    verdict (.ok a : Except ε α) = .ok () := rfl

@[simp] theorem verdict_error (e : ε) :
    verdict (.error e : Except ε α) = .error e := rfl

theorem verdict_unit (x : Except ε Unit) :
    verdict x = x := by
  cases x with
  | error e => rfl
  | ok a => rfl

theorem verdict_eq_ok_iff {x : Except ε α} :
    verdict x = .ok () ↔ ∃ a, x = .ok a := by
  cases x with
  | error e => simp
  | ok a => simp

theorem verdict_eq_error_iff {x : Except ε α} {e : ε} :
    verdict x = .error e ↔ x = .error e := by
  cases x with
  | error e' => simp
  | ok a => simp

theorem verdict_map {f : α → β} (x : Except ε α) :
    verdict (x.map f) = verdict x := by
  cases x with
  | error e => rfl
  | ok a => rfl

theorem verdict_bind_ok {f : α → β} (x : Except ε α) :
    verdict (x >>= fun a => .ok (f a)) = verdict x := by
  cases x with
  | error e => rfl
  | ok a => rfl

/-- A step that does not depend on the value before it can be judged on its own. -/
theorem verdict_bind {x : Except ε α} {f : α → Except ε β} {z : Except ε Unit}
    (h : ∀ a, verdict (f a) = z) :
    verdict (x >>= f) = (verdict x >>= fun _ => z) := by
  cases x with
  | error e => rfl
  | ok a => exact h a

/-- Steps in a row are judged one by one. -/
theorem verdict_mapM {f : α → Except ε β} (l : List α) :
    verdict (l.mapM f) = forM l fun a => verdict (f a) := by
  induction l with
  | nil => rfl
  | cons a rest ih =>
      rw [List.mapM_cons, List.forM_cons, ← ih]
      cases f a with
      | error e => rfl
      | ok b =>
          cases rest.mapM f with
          | error e => rfl
          | ok bs => rfl

theorem forM_eq_ok_iff {check : α → Except ε Unit} {l : List α} :
    forM l check = .ok () ↔ ∀ a ∈ l, check a = .ok () := by
  induction l with
  | nil => simp [pure, Except.pure]
  | cons a rest ih =>
      rw [List.forM_cons, bind_eq_ok_iff, List.forall_mem_cons, ← ih]
      exact ⟨fun ⟨_, ha, hrest⟩ => ⟨ha, hrest⟩, fun ⟨ha, hrest⟩ => ⟨(), ha, hrest⟩⟩

/-- Checks in a row fail with the first one that fails. -/
theorem forM_eq_error_iff {check : α → Except ε Unit} {l : List α} {e : ε} :
    forM l check = .error e ↔
      ∃ before a after, l = before ++ a :: after ∧ (∀ b ∈ before, check b = .ok ()) ∧
        check a = .error e := by
  induction l with
  | nil => simp [pure, Except.pure]
  | cons a rest ih =>
      rw [List.forM_cons, bind_eq_error_iff]
      constructor
      · rintro (ha | ⟨⟨⟩, ha, hrest⟩)
        · exact ⟨[], a, rest, rfl, List.forall_mem_nil _, ha⟩
        · obtain ⟨before, b, after, rfl, hbefore, hb⟩ := ih.1 hrest
          exact ⟨a :: before, b, after, rfl, List.forall_mem_cons.2 ⟨ha, hbefore⟩, hb⟩
      · rintro ⟨before, b, after, heq, hbefore, hb⟩
        cases before with
        | nil =>
            obtain ⟨rfl, rfl⟩ := List.cons.inj heq
            exact .inl hb
        | cons a' before =>
            obtain ⟨rfl, rfl⟩ := List.cons.inj heq
            obtain ⟨ha, hbefore⟩ := List.forall_mem_cons.1 hbefore
            exact .inr ⟨(), ha, ih.2 ⟨before, b, after, rfl, hbefore, hb⟩⟩

theorem verdict_mapError {ε' : Type} {f : ε → ε'} (x : Except ε α) :
    verdict (x.mapError f) = (verdict x).mapError f := by
  cases x with
  | error e => rfl
  | ok a => rfl

/-- If a step fails for reasons that do not depend on what came before, a run is a list of
checks. -/
theorem verdict_foldlM {step : β → α → Except ε β} {check : α → Except ε Unit} {l : List α}
    (h : ∀ b, ∀ a ∈ l, verdict (step b a) = check a) (b : β) :
    verdict (l.foldlM step b) = forM l check := by
  induction l generalizing b with
  | nil => rfl
  | cons a rest ih =>
      have hrest := ih fun b a' ha' => h b a' (List.mem_cons_of_mem _ ha')
      rw [List.foldlM_cons, List.forM_cons, ← h b a List.mem_cons_self]
      cases step b a with
      | error e => rfl
      | ok next => exact hrest next

/-- Checks of checks are checks in a row. -/
theorem forM_flatMap {check : β → Except ε Unit} {g : α → List β} (l : List α) :
    forM (l.flatMap g) check = forM l fun a => forM (g a) check := by
  induction l with
  | nil => rfl
  | cons a rest ih => rw [List.flatMap_cons, List.forM_append, List.forM_cons, ih]

/-- A check that was made before, or that asks for nothing, changes no verdict. -/
theorem absorb_left {y z : Except ε Unit}
    (h : z = y ∨ z = .ok ()) :
    (z >>= fun _ => y) = y := by
  rcases h with rfl | rfl
  · cases z with
    | error e => rfl
    | ok a => rfl
  · rfl

theorem absorb_right {y z : Except ε Unit}
    (h : z = y ∨ z = .ok ()) :
    (y >>= fun _ => z) = y := by
  rcases h with rfl | rfl
  · exact absorb_left (.inl rfl)
  · exact bind_pure _

end Verdict

end Outcome
end Facade
