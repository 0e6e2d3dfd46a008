import Facade.Proofs.Plan
import Facade.Proofs.TypeNames

/-!
# Laws of substitution

One substitution after another is a single substitution.  A type variable may be replaced by another
variable, which the second substitution replaces again, and the nullability marks that are met on
the way add up.

**Input.**  Two bindings, which may bind the same variables.

**Algorithm.**  The binding of the composition has the shapes of the first binding, substituted by
the second one, and the entries of the second binding for all other variables.

**Results.**
* `Binding.get?_andThen`: what the composition binds.
* `Shape.substitute_marked`: substitution keeps a nullability mark, also when it replaces the marked
  variable itself.
* `Shape.substitutions_compose`: the composition does what the two bindings do in turn.
-/

namespace Facade

namespace Dictionary

variable {κ α β : Type} [DecidableEq κ]

theorem get?_append (d e : Dictionary κ α) (key : κ) :
    get? (d ++ e) key = (d.get? key).or (e.get? key) := by
  simp [get?, Option.map_or]

theorem get?_mapValues (f : α → β) (d : Dictionary κ α) (key : κ) :
    get? (d.map fun entry => (entry.1, f entry.2)) key = (d.get? key).map f := by
  simp [get?, List.find?_map, Function.comp_def]

theorem get?_filterKeys (p : κ → Bool) (d : Dictionary κ α) (key : κ) :
    get? (d.filter fun entry => p entry.1) key = if p key then d.get? key else none := by
  induction d with
  | nil => simp [get?]
  | cons entry rest ih =>
      simp only [get?] at ih
      by_cases hkept : p entry.1 = true
      · by_cases hkey : entry.1 = key
        · subst hkey
          simp [get?, hkept]
        · simpa [get?, hkept, hkey] using ih
      · by_cases hkey : entry.1 = key
        · subst hkey
          simpa [get?, hkept] using ih
        · simpa [get?, hkept, hkey] using ih

end Dictionary

/-- One binding after the other. -/
def Binding.andThen (b c : Binding) : Binding :=
  (b.map fun entry => (entry.1, entry.2.substitute c)) ++ c.filter fun entry => !b.has entry.1

/-- The value of a variable after two substitutions is that of the first, substituted by the second,
or else that of the second. -/
theorem Binding.get?_andThen (b c : Binding) (x : String) :
    (b.andThen c).get? x = ((b.get? x).map (Shape.substitute c)).or (c.get? x) := by
  rw [andThen, Dictionary.get?_append, Dictionary.get?_mapValues,
    Dictionary.get?_filterKeys fun y => !b.has y]
  cases hget : b.get? x with
  | some bound => rfl
  | none => simp [Dictionary.get?_eq_none_iff.1 hget]

namespace Shape

/-- The same reference, nullable if it is nullable already or if the mark is set. -/
def marked (s : Shape) (mark : Bool) : Shape :=
  s.withNullable (s.nullable || mark)

/-- A type that may be null stays so. -/
theorem marked_marked (s : Shape) (m n : Bool) :
    (s.marked m).marked n = s.marked (m || n) := by
  simp [marked, withNullable, Bool.or_assoc]

section Equations

variable (b : Binding) {name package : String} {args : List Shape} {nullable : Bool}

/-- A bound variable is replaced, and stays nullable if either is. -/
theorem substitute_variable_of_some {bound : Shape}
    (h : b.get? name = some bound) :
    substitute b ⟨name, "", [], nullable⟩ = bound.marked nullable := by
  simp [substitute, h, marked]

theorem substitute_variable_of_none
    (h : b.get? name = none) :
    substitute b ⟨name, "", [], nullable⟩ = ⟨name, "", [], nullable⟩ := by
  simp [substitute, h]

/-- In any other type, the arguments are replaced. -/
theorem substitute_type
    (h : package ≠ "" ∨ args ≠ []) :
    substitute b ⟨name, package, args, nullable⟩ =
      ⟨name, package, args.map (substitute b), nullable⟩ := by
  have hvariable : ¬ (package.isEmpty && args.isEmpty) = true := by
    rcases h with h | h
    · simp [h]
    · simp [h]
  rw [substitute, if_neg hvariable, substituteAll_eq_map]

theorem variable_or_type (package : String) (args : List Shape) :
    (package = "" ∧ args = []) ∨ package ≠ "" ∨ args ≠ [] := by
  by_cases hpackage : package = ""
  · by_cases hargs : args = []
    · exact .inl ⟨hpackage, hargs⟩
    · exact .inr (.inr hargs)
  · exact .inr (.inl hpackage)

end Equations

/-- Whether a type may be null does not matter to a substitution. -/
theorem substitute_marked (c : Binding) (s : Shape) (mark : Bool) :
    (s.marked mark).substitute c = (s.substitute c).marked mark := by
  obtain ⟨name, package, args, nullable⟩ := s
  have hmarked : marked ⟨name, package, args, nullable⟩ mark =
      ⟨name, package, args, nullable || mark⟩ := rfl
  rw [hmarked]
  rcases variable_or_type package args with ⟨rfl, rfl⟩ | htype
  · cases hget : c.get? name with
    | some bound =>
        rw [substitute_variable_of_some c hget, substitute_variable_of_some c hget, marked_marked]
    | none =>
        rw [substitute_variable_of_none c hget, substitute_variable_of_none c hget]
        rfl
  · rw [substitute_type c htype, substitute_type c htype]
    rfl

theorem substitute_substitute_variable (b c : Binding) (name : String) (nullable : Bool) :
    (substitute b ⟨name, "", [], nullable⟩).substitute c =
      substitute (b.andThen c) ⟨name, "", [], nullable⟩ := by
  have hlookup := Binding.get?_andThen b c name
  cases hb : b.get? name with
  | some bound =>
      have hboth : (b.andThen c).get? name = some (bound.substitute c) := by
        simpa [hb] using hlookup
      rw [substitute_variable_of_some b hb, substitute_variable_of_some _ hboth, substitute_marked]
  | none =>
      rw [substitute_variable_of_none b hb]
      cases hc : c.get? name with
      | some bound =>
          have hboth : (b.andThen c).get? name = some bound := by
            simpa [hb, hc] using hlookup
          rw [substitute_variable_of_some c hc, substitute_variable_of_some _ hboth]
      | none =>
          have hboth : (b.andThen c).get? name = none := by
            simpa [hb, hc] using hlookup
          rw [substitute_variable_of_none c hc, substitute_variable_of_none _ hboth]

/-- Substituting by one binding and then by another is substituting by their composition, whose
lookups are those of the first binding, substituted, before those of the second. -/
theorem substitutions_compose (b c : Binding) :
    (∀ x, (b.andThen c).get? x = ((b.get? x).map (substitute c)).or (c.get? x)) ∧
    ∀ s : Shape, (s.substitute b).substitute c = s.substitute (b.andThen c) := by
  refine ⟨Binding.get?_andThen b c, fun s => ?_⟩
  induction s using Shape.induction with
  | step name package args nullable ih =>
      rcases variable_or_type package args with ⟨rfl, rfl⟩ | htype
      · exact substitute_substitute_variable b c name nullable
      · -- A type keeps its package and the number of its arguments: it never becomes a variable.
        have hinner : package ≠ "" ∨ args.map (substitute b) ≠ [] := by simpa using htype
        have hargs : (args.map (substitute b)).map (substitute c) =
            args.map (substitute (b.andThen c)) := by
          rw [List.map_map]
          exact List.map_congr_left ih
        rw [substitute_type b htype, substitute_type c hinner, substitute_type _ htype, hargs]

end Shape
end Facade
