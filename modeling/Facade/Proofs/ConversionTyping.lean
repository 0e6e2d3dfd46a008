import Facade.Proofs.ConversionMeaning

/-!
# Types of conversion code

Conversion code has the types that the shapes announce.  Since an expression has a type exactly when
it denotes a value of that type, this is read off the meaning of the code in a runtime where every
type has values.

**Input.**  The table of a session, a well-formed shape and an expression with the type of the
shape, or of the shape it is shown as.

**Results.**
* `Shows.convert_hasType`: a conversion goes from one type of the plan to the other.  Exported code
  therefore has the type of the shown shape and imported code the type of the shape, at every depth
  and with the parameter types that lambdas write out.
-/

namespace Facade
namespace Mapping

open Code

/-- The code of a conversion has the type on the other side. -/
theorem Shows.convert_hasType {S : Signature} {T : Table} {s s' : Shape} {e x : Expr}
    {d : Direction} {Γ : Env Ty}
    (h : Shows S T s s')
    (hpost : e.isPostfix = true)
    (hx : T.convert d e s = .ok x)
    (he : HasType S Γ e ((T.plan S s).type d)) :
    HasType S Γ x ((T.plan S s).type d.flip) := by
  obtain ⟨R, hR⟩ := exists_runtime S
  obtain ⟨ρ, rfl⟩ := exists_types_eq hR Γ
  obtain ⟨v, hv⟩ := (exists_denotes_iff hR).2 he
  exact (exists_denotes_iff hR).1 ⟨_, h.convert_denotes d e x hpost hx ρ v hv⟩

section Session

variable {exported : List (Shape × String)} {extra : List Shape} {erase : Bool} {T : Table}
variable {s s' : Shape} {e : Expr}

/-- In every session, the code that a type is exported by has the type that is shown for it, and the
code that it is imported by has the type itself. -/
theorem conversion_code_has_shown_type
    (hT : Table.ofSession exported extra erase = .ok T)
    (hs : WellFormed exported extra s)
    (hshown : T.exported s = .ok s')
    (hpost : e.isPostfix = true)
    (members : String → Ty → Ty → Prop) (Γ : Env Ty) :
    let S := sessionSignature exported extra erase members
    (Readable s → (∃ x, T.exportExpr e s = .ok x) ∧ ∃ x, T.importExpr e s = .ok x) ∧
    (∀ x, T.exportExpr e s = .ok x → HasType S Γ e s.ty →
      HasType S Γ x s'.ty ∧ (S.Unambiguous → ∀ t, HasType S Γ x t → t = s'.ty)) ∧
    (∀ x, T.importExpr e s = .ok x → HasType S Γ e s'.ty →
      HasType S Γ x s.ty ∧ (S.Unambiguous → ∀ t, HasType S Γ x t → t = s.ty)) := by
  intro S
  have h : Shows S T s s' := shows_of_exported members hT s s' hs hshown
  obtain ⟨hnative, hshown'⟩ := h.plan_types
  refine ⟨?_, ?_, ?_⟩
  · intro hread
    exact ⟨h.exists_convert hread .exporting e, h.exists_convert hread .importing e⟩
  · intro x hx he
    have hty : HasType S Γ x s'.ty := by
      rw [← hnative] at he
      rw [← hshown']
      exact h.convert_hasType hpost hx he
    exact ⟨hty, fun hS t ht => ht.unique hS _ hty⟩
  · intro x hx he
    have hty : HasType S Γ x s.ty := by
      rw [← hshown'] at he
      rw [← hnative]
      exact h.convert_hasType hpost hx he
    exact ⟨hty, fun hS t ht => ht.unique hS _ hty⟩

theorem conversion_code_has_shown_type_of_callback :
    WellFormed [(album, "Album")] [] albumCallback ∧ Readable albumCallback ∧
      (Expr.name "f").isPostfix = true ∧
      ∃ x, albumTable.exportExpr (.name "f") albumCallback = .ok x ∧
        ∀ Γ : Env Ty, Γ "f" = some albumCallback.ty →
          HasType (sessionSignature [(album, "Album")] [] false fun _ _ _ => False) Γ x
            (.nullable (.function
              [.array (.nullable (.object { name := "Album", package := "music.js" }))]
              (.object .double))) := by
  have hs : WellFormed [(album, "Album")] [] albumCallback := by decide
  have hread : Readable albumCallback := by decide
  have hall := fun Γ => conversion_code_has_shown_type ofSession_albumTable hs
    exported_albumCallback (e := .name "f") rfl (fun _ _ _ => False) Γ
  obtain ⟨x, hx⟩ := ((hall fun _ => none).1 hread).1
  refine ⟨hs, hread, rfl, x, hx, fun Γ hf => ?_⟩
  exact ((hall Γ).2.1 x hx (.name hf)).1

/-- A variable of a type that can be shown need not have a conversion at all. -/
theorem exists_typed_without_conversion_code :
    ∃ T s, Table.ofSession [] [] false = .ok T ∧ WellFormed [] [] s ∧ T.exported s = .ok s ∧
      ∃ Γ : Env Ty, HasType (sessionSignature [] [] false fun _ _ _ => False) Γ (.name "f") s.ty ∧
        ∀ x, T.exportExpr (.name "f") s ≠ .ok x ∧ T.importExpr (.name "f") s ≠ .ok x := by
  have hlong : Text.maxDigits < 4301 := by decide
  refine ⟨builtinTable, functionOn (longNumber 4301), ofSession_builtinTable, by decide,
    exported_functionOn _, fun _ => some (functionOn (longNumber 4301)).ty, .name rfl,
    fun x => ⟨?_, ?_⟩⟩
  · exact convert_functionOn_longNumber hlong .exporting _ x
  · exact convert_functionOn_longNumber hlong .importing _ x

end Session

end Mapping
end Facade
