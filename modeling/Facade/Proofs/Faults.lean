import Facade.Proofs.LinkedCode

/-!
# Why a type cannot be shown or converted

Showing a type, importing a value and exporting one are three recursions over the same shape.  They
meet the same obstacles in the same order, with one exception: a lambda writes out the types of its
parameters, and a type whose number cannot be read cannot be written.

**Input.**  A table and a shape.

**Algorithm.**  `Blocks` says which fault keeps a type from being shown: the leftmost type argument
that cannot be shown decides.  `written` collects the types that a conversion writes out.  A
conversion is compared with the showing of its type, up to the types that it writes.

**Results.**
* `exported_eq_error_iff`: a type cannot be shown exactly if something blocks it.
* `convertsAsShown`: a conversion fails as the showing of its type does, or at a type that it
  writes.
* `hasOverlong_of_mem_written`: only numbers of the type itself keep a conversion from being
  written.
* `lookups_fail_together`: so the three fail together as long as numbers can be read.
-/

namespace Facade
namespace Mapping

open Code Outcome

section Agreement

variable {ε α β : Type} {tooLong : Text.Overlong → ε}

/-- One of the types has a number that cannot be read, which is why it cannot be written. -/
def Unwritable (types : List Shape) (o : Text.Overlong) : Prop :=
  ∃ u ∈ types, Shape.checkNumbers u.parts = .error o

/-- A step succeeds if the verdict is good and all types can be written.  It fails with the verdict,
or with a type that cannot be written. -/
structure AgreesUpTo (tooLong : Text.Overlong → ε) (types : List Shape) (x : Except ε α)
    (y : Except ε Unit) : Prop where
  ok : ∀ a, x = .ok a → y = .ok () ∧ ∀ u ∈ types, Readable u
  error : ∀ e, x = .error e → y = .error e ∨ ∃ o, Unwritable types o ∧ e = tooLong o

/-- The numbers of a type can be read exactly if their check succeeds. -/
theorem readable_iff_checkNumbers {u : Shape} :
    Readable u ↔ Shape.checkNumbers u.parts = .ok () :=
  Shape.checkNumbers_eq_ok_iff.symm

theorem checkNumbers_append (shapes shapes' : List Shape) :
    Shape.checkNumbers (shapes ++ shapes') =
      (Shape.checkNumbers shapes >>= fun _ => Shape.checkNumbers shapes') := by
  simp only [Shape.checkNumbers, List.findSome?_append]
  cases shapes.findSome? Shape.overlong? with
  | none => rfl
  | some o => rfl

theorem not_unwritable {types : List Shape} {o : Text.Overlong}
    (h : ∀ u ∈ types, Readable u) :
    ¬ Unwritable types o := by
  rintro ⟨u, hu, ho⟩
  rw [readable_iff_checkNumbers.1 (h u hu)] at ho
  simp at ho

theorem Unwritable.mono {types types' : List Shape} {o : Text.Overlong}
    (h : Unwritable types o)
    (hsub : types ⊆ types') :
    Unwritable types' o :=
  let ⟨u, hu, ho⟩ := h
  ⟨u, hsub hu, ho⟩

namespace AgreesUpTo

variable {types types' : List Shape} {x : Except ε α} {y z : Except ε Unit}

theorem of_verdict
    (h : verdict x = y) :
    AgreesUpTo tooLong [] x y where
  ok a ha := ⟨h ▸ verdict_eq_ok_iff.2 ⟨a, ha⟩, List.forall_mem_nil _⟩
  error _ he := .inl (h ▸ verdict_eq_error_iff.2 he)

theorem of_checkNumbers (u : Shape) :
    AgreesUpTo id [u] (Shape.checkNumbers u.parts) (.ok ()) where
  ok _ hu := ⟨rfl, List.forall_mem_singleton.2 (readable_iff_checkNumbers.2 hu)⟩
  error o hu := .inr ⟨o, ⟨u, List.mem_singleton_self u, hu⟩, rfl⟩

theorem map {f : α → β}
    (h : AgreesUpTo tooLong types x y) :
    AgreesUpTo tooLong types (x >>= fun a => .ok (f a)) y where
  ok b hb := by
    obtain ⟨a, ha, -⟩ := bind_eq_ok_iff.1 hb
    exact h.ok a ha
  error e he := by
    rcases bind_eq_error_iff.1 he with he | ⟨a, -, he⟩
    · exact h.error e he
    · simp at he

/-- The second step may rely on the success of the first. -/
theorem bind {f : α → Except ε β}
    (h : AgreesUpTo tooLong types x y)
    (hf : ∀ a, x = .ok a → AgreesUpTo tooLong types' (f a) z) :
    AgreesUpTo tooLong (types ++ types') (x >>= f) (y >>= fun _ => z) where
  ok b hb := by
    obtain ⟨a, ha, hb⟩ := bind_eq_ok_iff.1 hb
    obtain ⟨hy, htypes⟩ := h.ok a ha
    obtain ⟨hz, htypes'⟩ := (hf a ha).ok b hb
    exact ⟨bind_eq_ok_iff.2 ⟨(), hy, hz⟩, List.forall_mem_append.2 ⟨htypes, htypes'⟩⟩
  error e he := by
    rcases bind_eq_error_iff.1 he with he | ⟨a, ha, he⟩
    · rcases h.error e he with he | ⟨o, ho, rfl⟩
      · exact .inl (bind_eq_error_iff.2 (.inl he))
      · exact .inr ⟨o, ho.mono (List.subset_append_left _ _), rfl⟩
    · rcases (hf a ha).error e he with he | ⟨o, ho, rfl⟩
      · exact .inl (bind_eq_error_iff.2 (.inr ⟨(), (h.ok a ha).1, he⟩))
      · exact .inr ⟨o, ho.mono (List.subset_append_right _ _), rfl⟩

/-- A first step whose failures are those of the second adds nothing to the verdict. -/
theorem bind_absorb {f : α → Except ε β}
    (h : AgreesUpTo tooLong types x z)
    (hz : (z >>= fun _ => y) = y)
    (hf : ∀ a, x = .ok a → AgreesUpTo tooLong types' (f a) y) :
    AgreesUpTo tooLong (types ++ types') (x >>= f) y :=
  hz ▸ h.bind hf

/-- A second step that fails only where the first does adds nothing to the verdict. -/
theorem bind_absorbed {f : α → Except ε β}
    (h : AgreesUpTo tooLong types x y)
    (hz : (y >>= fun _ => z) = y)
    (hf : ∀ a, x = .ok a → AgreesUpTo tooLong types' (f a) z) :
    AgreesUpTo tooLong (types ++ types') (x >>= f) y :=
  hz ▸ h.bind hf

/-- Steps in a row agree with their checks in a row. -/
theorem mapM {γ : Type} {l : List γ} {f : γ → Except ε β} {types : γ → List Shape}
    {check : γ → Except ε Unit}
    (h : ∀ a ∈ l, AgreesUpTo tooLong (types a) (f a) (check a)) :
    AgreesUpTo tooLong (l.flatMap types) (l.mapM f) (forM l check) := by
  induction l with
  | nil => exact of_verdict rfl
  | cons a rest ih =>
      obtain ⟨ha, hrest⟩ := List.forall_mem_cons.1 h
      rw [List.mapM_cons, List.forM_cons, List.flatMap_cons]
      exact ha.bind fun b _ => (ih hrest).map

theorem mapError {ε' : Type} {tooLong' : Text.Overlong → ε'} {f : ε → ε'}
    (h : AgreesUpTo tooLong types x y)
    (hf : ∀ o, f (tooLong o) = tooLong' o) :
    AgreesUpTo tooLong' types (x.mapError f) (y.mapError f) where
  ok a ha := by
    obtain ⟨hy, htypes⟩ := h.ok a (mapError_eq_ok_iff.1 ha)
    exact ⟨mapError_eq_ok_iff.2 hy, htypes⟩
  error e' he := by
    cases x with
    | ok a => simp [Except.mapError] at he
    | error e =>
        obtain rfl : f e = e' := Except.error.inj he
        rcases h.error e rfl with rfl | ⟨o, ho, rfl⟩
        · exact .inl rfl
        · exact .inr ⟨o, ho, hf o⟩

/-- Types are checked one after the other. -/
theorem of_checkNumbers_all (shapes : List Shape) :
    AgreesUpTo id shapes (Shape.checkNumbers (Shape.partsAll shapes)) (.ok ()) := by
  induction shapes with
  | nil => exact of_verdict rfl
  | cons u rest ih =>
      rw [Shape.partsAll, checkNumbers_append]
      exact (of_checkNumbers u).bind fun _ _ => ih

/-- What agrees with a verdict succeeds exactly if the verdict is good and the types can be
written. -/
theorem exists_ok_iff
    (h : AgreesUpTo tooLong types x y) :
    (∃ a, x = .ok a) ↔ y = .ok () ∧ ∀ u ∈ types, Readable u := by
  refine ⟨fun ⟨a, ha⟩ => h.ok a ha, fun ⟨hy, htypes⟩ => ?_⟩
  cases x with
  | ok a => exact ⟨a, rfl⟩
  | error e =>
      rcases h.error e rfl with he | ⟨o, ho, -⟩
      · simp [hy] at he
      · exact absurd ho (not_unwritable htypes)

/-- Where all numbers can be read, agreement up to them is agreement. -/
theorem verdict_eq
    (h : AgreesUpTo tooLong types x y)
    (htypes : ∀ u ∈ types, Readable u) :
    verdict x = y := by
  cases x with
  | ok a => exact (h.ok a rfl).1.symm
  | error e =>
      rcases h.error e rfl with rfl | ⟨o, ho, -⟩
      · rfl
      · exact absurd ho (not_unwritable htypes)

end AgreesUpTo

end Agreement

namespace Table

variable {t : Table}

section Blocks

/-- Arrays and lists are shown through their first type argument. -/
def IsCollection (t : Table) (s : Shape) : Prop :=
  t.conversion? s = .ok (some .array) ∨ t.conversion? s = .ok (some .list)

/-- Function types and types without a rule are shown through all their type arguments. -/
def IsThrough (t : Table) (s : Shape) : Prop :=
  t.conversion? s = .ok (some .function) ∨ t.conversion? s = .ok none

/-- The fault that keeps a type from being shown. -/
inductive Blocks (t : Table) : Shape → Fault → Prop
  /-- It cannot be told whether the type is a function type. -/
  | number {s : Shape} {o : Text.Overlong}
      (h : t.conversion? s = .error o) :
      Blocks t s (.overlong o)
  /-- A collection has no element type. -/
  | noElement {s : Shape}
      (h : t.IsCollection s)
      (hargs : s.args = []) :
      Blocks t s (.noArguments s.key)
  /-- The element type of a collection is blocked. -/
  | element {s a : Shape} {rest : List Shape} {f : Fault}
      (h : t.IsCollection s)
      (hargs : s.args = a :: rest)
      (ha : Blocks t a f) :
      Blocks t s f
  /-- A type argument is blocked, and all arguments on its left can be shown. -/
  | argument {s a : Shape} {before after : List Shape} {f : Fault}
      (h : t.IsThrough s)
      (hargs : s.args = before ++ a :: after)
      (hbefore : ∀ b ∈ before, ∃ b', t.exported b = .ok b')
      (ha : Blocks t a f) :
      Blocks t s f
  /-- A type without a rule has arguments that are shown in another way. -/
  | unregistered {s : Shape} {args : List Shape}
      (h : t.conversion? s = .ok none)
      (hargs : t.exportedAll s.args = .ok args)
      (hne : args ≠ s.args) :
      Blocks t s (.unmappable s)

/-- The first type that is not shown decides how a list fails. -/
theorem exportedAll_eq_error_iff {shapes : List Shape} {f : Fault} :
    t.exportedAll shapes = .error f ↔
      ∃ before a after, shapes = before ++ a :: after ∧
        (∀ b ∈ before, ∃ b', t.exported b = .ok b') ∧ t.exported a = .error f := by
  rw [exportedAll_eq_mapM, ← verdict_eq_error_iff, verdict_mapM, forM_eq_error_iff]
  simp only [verdict_eq_ok_iff, verdict_eq_error_iff]

theorem exported_eq_error_of_blocks {s : Shape} {f : Fault}
    (h : t.Blocks s f) :
    t.exported s = .error f := by
  induction h with
  | number h => rw [exported_eq, h]
  | noElement h hargs =>
      rcases h with h | h
      · rw [exported_eq, h, hargs]
        rfl
      · rw [exported_eq, h, hargs]
        rfl
  | element h hargs ha ih =>
      rcases h with h | h
      · rw [exported_eq, h, hargs]
        simp only [exportedFirst, ih]
        rfl
      · rw [exported_eq, h, hargs]
        simp only [exportedFirst, ih]
        rfl
  | argument h hargs hbefore ha ih =>
      have hall := exportedAll_eq_error_iff.2 ⟨_, _, _, hargs, hbefore, ih⟩
      rcases h with h | h
      · rw [exported_eq, h]
        simp only [hall]
        rfl
      · rw [exported_eq, h]
        simp only [hall]
        rfl
  | unregistered h hargs hne =>
      rw [exported_eq, h]
      simp only [hargs, bind, Except.bind, if_neg hne]

/-- Whatever keeps a type from being shown is found in it, by induction over the type. -/
theorem blocks_of_exported_eq_error (s : Shape) :
    ∀ f, t.exported s = .error f → t.Blocks s f := by
  induction s using Shape.induction with
  | step name package args nullable ih =>
      intro f hf
      have helement : ∀ {collection : Key}, t.IsCollection ⟨name, package, args, nullable⟩ →
          collection = Shape.key ⟨name, package, args, nullable⟩ →
          t.exportedFirst collection args = .error f →
            t.Blocks ⟨name, package, args, nullable⟩ f := by
        rintro _ hc rfl h
        cases args with
        | nil =>
            obtain rfl := Except.error.inj h
            exact .noElement hc rfl
        | cons a rest => exact .element hc rfl (ih a List.mem_cons_self f h)
      have hargument : t.IsThrough ⟨name, package, args, nullable⟩ →
          t.exportedAll args = .error f → t.Blocks ⟨name, package, args, nullable⟩ f := by
        intro hc h
        obtain ⟨before, a, after, hargs, hbefore, ha⟩ := exportedAll_eq_error_iff.1 h
        exact .argument hc hargs hbefore (ih a (by simp [hargs]) f ha)
      rw [exported] at hf
      split at hf
      case h_1 o ho =>
        obtain rfl := Except.error.inj hf
        exact .number ho
      case h_2 hc =>
        rcases bind_eq_error_iff.1 hf with hf | ⟨args', hargs, hf⟩
        · exact hargument (.inr hc) hf
        · split at hf
          · simp at hf
          · next hne =>
              obtain rfl := Except.error.inj hf
              exact .unregistered hc hargs hne
      case h_6 hc =>
        rcases bind_eq_error_iff.1 hf with hf | ⟨a', -, hf⟩
        · exact helement (.inl hc) rfl hf
        · simp at hf
      case h_7 hc =>
        rcases bind_eq_error_iff.1 hf with hf | ⟨a', -, hf⟩
        · exact helement (.inr hc) rfl hf
        · simp at hf
      case h_9 hc =>
        rcases bind_eq_error_iff.1 hf with hf | ⟨args', -, hf⟩
        · exact hargument (.inl hc) hf
        · simp at hf
      all_goals simp at hf

/-- A type is not shown exactly if something blocks it. -/
theorem exported_eq_error_iff {s : Shape} {f : Fault} :
    t.exported s = .error f ↔ t.Blocks s f :=
  ⟨blocks_of_exported_eq_error s f, exported_eq_error_of_blocks⟩

end Blocks

section Written

/-- The type that a lambda writes out for a parameter, if the parameter can be shown. -/
def writtenType (t : Table) (d : Direction) (param : Shape) : List Shape :=
  match d with
  | .importing => [param]
  | .exporting => (t.exported param).toOption.toList

mutual

/-- The types that a conversion writes out, in the order in which it comes to them. -/
def written (t : Table) (d : Direction) : Shape → List Shape
  | ⟨name, package, args, nullable⟩ =>
      match t.conversion? ⟨name, package, args, nullable⟩ with
      | .ok (some .array) => t.writtenFirst d args
      | .ok (some .list) => t.writtenFirst d args
      | .ok (some .function) => t.writtenCall d args ++ args.dropLast.flatMap (t.writtenType d)
      | _ => []

/-- The types that the conversion of an element writes out. -/
def writtenFirst (t : Table) (d : Direction) : List Shape → List Shape
  | [] => []
  | s :: _ => t.written d s

/-- The types that the conversions of arguments and result of a call write out. -/
def writtenCall (t : Table) (d : Direction) : List Shape → List Shape
  | [] => []
  | [result] => t.written d result
  | param :: next :: rest => t.written d.flip param ++ t.writtenCall d (next :: rest)

end

/-- The types written in the code of a conversion, one case for each kind of rule. -/
theorem written_eq (t : Table) (d : Direction) (s : Shape) :
    t.written d s =
      match t.conversion? s with
      | .ok (some .array) => t.writtenFirst d s.args
      | .ok (some .list) => t.writtenFirst d s.args
      | .ok (some .function) =>
          t.writtenCall d s.args ++ s.args.dropLast.flatMap (t.writtenType d)
      | _ => [] := by
  obtain ⟨name, package, args, nullable⟩ := s
  unfold written
  rfl

/-- The conversion of a type fails as the showing of the type does, or at a type that it writes. -/
def ConvertsAsShown (t : Table) (s : Shape) : Prop :=
  ∀ d e, AgreesUpTo Fault.overlong (t.written d s) (t.convert d e s) (verdict (t.exported s))

/-- The code for a collection fails as its element does. -/
theorem agrees_convertFirst {shapes : List Shape} (collection : Key) (d : Direction)
    (ih : ∀ a ∈ shapes, t.ConvertsAsShown a) :
    AgreesUpTo Fault.overlong (t.writtenFirst d shapes) (t.convertFirst d collection shapes)
      (verdict (t.exportedFirst collection shapes)) := by
  cases shapes with
  | nil => exact .of_verdict rfl
  | cons a rest => exact ih a List.mem_cons_self d .it

/-- The code of a call fails as the first of its types does. -/
theorem agrees_convertCall {shapes : List Shape} (d : Direction) (target : Expr)
    (ih : ∀ a ∈ shapes, t.ConvertsAsShown a) (names : List String) (done : List Expr) :
    AgreesUpTo Fault.overlong (t.writtenCall d shapes) (t.convertCall d target names done shapes)
      (forM shapes fun a => verdict (t.exported a)) := by
  induction shapes generalizing names done with
  | nil => exact .of_verdict rfl
  | cons a rest hrest =>
      obtain ⟨ha, ih⟩ := List.forall_mem_cons.1 ih
      cases rest with
      | nil =>
          have hlast : (forM [a] fun a => verdict (t.exported a)) = verdict (t.exported a) := by
            rw [List.forM_cons, List.forM_nil]
            exact bind_pure _
          rw [hlast, writtenCall, convertCall]
          exact ha d _
      | cons b rest =>
          rw [writtenCall, convertCall, List.forM_cons]
          exact (ha d.flip _).bind fun arg _ => hrest ih _ _

/-- The type of a parameter that can be shown is written out unless one of its numbers cannot be
read. -/
theorem agrees_parameterType {param shown : Shape} (d : Direction)
    (h : t.exported param = .ok shown) :
    AgreesUpTo Fault.overlong (t.writtenType d param) (t.parameterType d param) (.ok ()) := by
  cases d with
  | importing => exact ((AgreesUpTo.of_checkNumbers param).mapError fun _ => rfl).map
  | exporting =>
      rw [writtenType, parameterType, h]
      exact ((AgreesUpTo.of_checkNumbers shown).mapError fun _ => rfl).map

/-- A lambda writes out its types when the call is converted, so that all arguments can be shown. -/
theorem agrees_lambda {shapes : List Shape} (d : Direction) (target : Expr) (names : List String)
    (lambda : Expr → List Shape → Expr)
    (ih : ∀ a ∈ shapes, t.ConvertsAsShown a) :
    AgreesUpTo Fault.overlong
      (t.writtenCall d shapes ++ shapes.dropLast.flatMap (t.writtenType d))
      (do
        let body ← t.convertCall d target names [] shapes
        let types ← shapes.dropLast.mapM (t.parameterType d)
        .ok (lambda body types))
      (verdict (t.exportedAll shapes)) := by
  have hcall := agrees_convertCall d target ih names []
  have hall : (verdict (t.exportedAll shapes)) =
      ((forM shapes fun a => verdict (t.exported a)) >>= fun _ => .ok ()) := by
    rw [exportedAll_eq_mapM, verdict_mapM]
    exact (bind_pure _).symm
  have hok : .ok () = forM shapes.dropLast (fun _ => (.ok () : Except Fault Unit)) :=
    (forM_eq_ok_iff.2 fun _ _ => rfl).symm
  rw [hall]
  -- The types are written after the call was converted, when all parameters can be shown.
  refine hcall.bind fun body hbody => ?_
  rw [hok]
  refine AgreesUpTo.map (AgreesUpTo.mapM fun p hp => ?_)
  have hshown := forM_eq_ok_iff.1 (hcall.ok body hbody).1
  obtain ⟨p', hp'⟩ := verdict_eq_ok_iff.1 (hshown p (List.dropLast_subset _ hp))
  exact agrees_parameterType d hp'

/-- The code of a conversion fails as showing the type does, but for numbers in the types it writes.
-/
theorem convertsAsShown (t : Table) (s : Shape) :
    t.ConvertsAsShown s := by
  induction s using Shape.induction with
  | step name package args nullable ih =>
      intro d e
      rw [written_eq, convert_eq, exported_eq]
      dsimp only
      cases hc : t.conversion? ⟨name, package, args, nullable⟩ with
      | error o => exact .of_verdict rfl
      | ok c =>
          cases c with
          | none => exact .of_verdict (verdict_map _)
          | some c =>
              cases c with
              | array =>
                  rw [verdict_bind_ok]
                  exact (agrees_convertFirst _ d ih).map
              | list =>
                  rw [verdict_bind_ok]
                  exact (agrees_convertFirst _ d ih).map
              | function =>
                  rw [verdict_bind_ok]
                  exact agrees_lambda d _ _ _ ih
              | _ => exact .of_verdict rfl

end Written

end Table

section Session

variable {exported : List (Shape × String)} {extra : List Shape} {erase : Bool} {T : Table}

/-- A number in the shape has too many digits to be read. -/
def HasOverlong (s : Shape) (o : Text.Overlong) : Prop :=
  ∃ u ∈ s.parts, u.overlong? = some o

/-- A number that cannot be read in an argument is one in the type. -/
theorem HasOverlong.of_mem_args {s a : Shape} {o : Text.Overlong}
    (h : HasOverlong a o)
    (ha : a ∈ s.args) :
    HasOverlong s o :=
  let ⟨u, hu, ho⟩ := h
  ⟨u, parts_subset_of_mem_args ha hu, ho⟩

theorem not_hasOverlong {s : Shape} {o : Text.Overlong}
    (h : Readable s) :
    ¬ HasOverlong s o := by
  rintro ⟨u, hu, ho⟩
  rw [h u hu] at ho
  simp at ho

theorem readable_of_not_hasOverlong {s : Shape}
    (h : ∀ o, ¬ HasOverlong s o) :
    Readable s := by
  intro u hu
  cases ho : u.overlong? with
  | none => rfl
  | some o => exact absurd ⟨u, hu, ho⟩ (h o)

theorem hasOverlong_of_checkNumbers {s : Shape} {o : Text.Overlong}
    (h : Shape.checkNumbers s.parts = .error o) :
    HasOverlong s o := by
  rw [Shape.checkNumbers] at h
  split at h
  · next o' hfound =>
      obtain rfl := Except.error.inj h
      exact List.exists_of_findSome?_eq_some hfound
  · simp at h

theorem overlong?_congr {s u : Shape}
    (h : s.key = u.key) :
    s.overlong? = u.overlong? := by
  obtain ⟨hpackage, hname⟩ := Key.mk.inj h
  rw [Shape.overlong?, Shape.overlong?, hpackage, hname]

/-- Numbers that cannot be read come from the type itself: what a session adds has none. -/
theorem hasOverlong_of_exported {s s' : Shape} {o : Text.Overlong}
    (hT : Table.ofSession exported extra erase = .ok T)
    (hshown : T.exported s = .ok s')
    (h : HasOverlong s' o) :
    HasOverlong s o := by
  obtain ⟨u, hu, ho⟩ := h
  cases Table.exported_parts hT s s' hshown u hu with
  | kept part hpart hkey => exact ⟨part, hpart, overlong?_congr hkey ▸ ho⟩
  | builtin hkey =>
      have hbuiltin : ∀ k ∈ Table.shownKeys, (Shape.ofKey k).overlong? = none := by decide
      have hsame : u.overlong? = (Shape.ofKey u.key).overlong? := overlong?_congr rfl
      rw [hsame, hbuiltin _ hkey] at ho
      simp at ho
  | wrapper native name hmem hkey =>
      have hsame : u.overlong? =
          ((Shape.ofKey (wrapperKey native name erase)).withNullable false).overlong? :=
        overlong?_congr hkey
      rw [hsame, overlong?_wrapperKey] at ho
      simp at ho

/-- The types written at parameters bring no new numbers. -/
theorem hasOverlong_of_mem_writtenType {d : Direction} {param u : Shape} {o : Text.Overlong}
    (hT : Table.ofSession exported extra erase = .ok T)
    (hu : u ∈ T.writtenType d param)
    (h : HasOverlong u o) :
    HasOverlong param o := by
  cases d with
  | importing => rwa [← List.mem_singleton.1 hu]
  | exporting =>
      cases hshown : T.exported param with
      | error f => simp [Table.writtenType, hshown, Except.toOption] at hu
      | ok shown =>
          obtain rfl : u = shown := by
            simpa [Table.writtenType, hshown, Except.toOption] using hu
          exact hasOverlong_of_exported hT hshown h

theorem exists_of_mem_writtenCall {d : Direction} {shapes : List Shape} {u : Shape}
    (hu : u ∈ T.writtenCall d shapes) :
    ∃ a ∈ shapes, ∃ d', u ∈ T.written d' a := by
  induction shapes with
  | nil => simp [Table.writtenCall] at hu
  | cons a rest ih =>
      cases rest with
      | nil => exact ⟨a, List.mem_cons_self, d, by simpa [Table.writtenCall] using hu⟩
      | cons b rest =>
          rw [Table.writtenCall, List.mem_append] at hu
          rcases hu with hu | hu
          · exact ⟨a, List.mem_cons_self, d.flip, hu⟩
          · obtain ⟨c, hc, d', hu⟩ := ih hu
            exact ⟨c, List.mem_cons_of_mem _ hc, d', hu⟩

/-- A conversion is kept from being written only by numbers of the type that it converts. -/
theorem hasOverlong_of_mem_written
    (hT : Table.ofSession exported extra erase = .ok T) (s : Shape) :
    ∀ d u o, u ∈ T.written d s → HasOverlong u o → HasOverlong s o := by
  induction s using Shape.induction with
  | step name package args nullable ih =>
      have hfirst : ∀ d u o, u ∈ T.writtenFirst d args → HasOverlong u o →
          HasOverlong ⟨name, package, args, nullable⟩ o := by
        intro d u o hu ho
        cases args with
        | nil => simp [Table.writtenFirst] at hu
        | cons a rest =>
            exact (ih a List.mem_cons_self d u o hu ho).of_mem_args List.mem_cons_self
      intro d u o hu ho
      rw [Table.written] at hu
      split at hu
      · exact hfirst d u o hu ho
      · exact hfirst d u o hu ho
      · rcases List.mem_append.1 hu with hu | hu
        · obtain ⟨a, ha, d', hu⟩ := exists_of_mem_writtenCall hu
          exact (ih a ha d' u o hu ho).of_mem_args ha
        · obtain ⟨p, hp, hu⟩ := List.mem_flatMap.1 hu
          exact (hasOverlong_of_mem_writtenType hT hu ho).of_mem_args
            (List.dropLast_subset _ hp)
      · simp at hu

/-- What the three look-ups for a type have in common. -/
structure FailTogether (T : Table) (s : Shape) : Prop where
  /-- They have the same verdict as long as the types that lambdas write out can be read. -/
  together : (∀ d, ∀ u ∈ T.written d s, Readable u) → ∀ e e',
    verdict (T.exportExpr e s) = verdict (T.exported s) ∧
      verdict (T.importExpr e' s) = verdict (T.exported s)
  /-- This is so whenever the numbers of the type can be read. -/
  written : Readable s → ∀ d, ∀ u ∈ T.written d s, Readable u
  /-- In any case a conversion exists exactly if the type can be shown and these types can be
  read. -/
  converts : ∀ d e, (∃ x, T.convert d e s = .ok x) ↔
    (∃ s', T.exported s = .ok s') ∧ ∀ u ∈ T.written d s, Readable u
  /-- Otherwise it fails as the showing of the type does, or with a number of the type. -/
  fails : ∀ d e f, T.convert d e s = .error f →
    T.exported s = .error f ∨ ∃ o, Unwritable (T.written d s) o ∧ HasOverlong s o ∧ f = .overlong o
  /-- The leftmost type argument that cannot be shown decides on the fault. -/
  leftmost : ∀ f, T.exported s = .error f ↔ T.Blocks s f

/-- Showing a type and converting it in either direction fail together and alike, but for numbers
that cannot be read. -/
theorem lookups_fail_together
    (hT : Table.ofSession exported extra erase = .ok T) (s : Shape) :
    FailTogether T s where
  together htypes e e' := ⟨(T.convertsAsShown s .exporting e).verdict_eq (htypes .exporting),
    (T.convertsAsShown s .importing e').verdict_eq (htypes .importing)⟩
  written hs d u hu := by
    refine readable_of_not_hasOverlong fun o ho => ?_
    exact not_hasOverlong hs (hasOverlong_of_mem_written hT s d u o hu ho)
  converts d e := by
    rw [(T.convertsAsShown s d e).exists_ok_iff, verdict_eq_ok_iff]
  fails d e f hf := by
    rcases (T.convertsAsShown s d e).error f hf with hf | ⟨o, ⟨u, hu, ho⟩, rfl⟩
    · exact .inl (verdict_eq_error_iff.1 hf)
    · have hnumber := hasOverlong_of_mem_written hT s d u o hu (hasOverlong_of_checkNumbers ho)
      exact .inr ⟨o, ⟨u, hu, ho⟩, hnumber, rfl⟩
  leftmost _ := Table.exported_eq_error_iff

/-- A callback with two parameters that cannot be shown. -/
def pallet : Shape := { name := "Pallet", package := "depot", args := [.long] }

def palletCallback : Shape :=
  .functionOf [.listOf .string, .functionOf [.listOf pallet] .long, .array] .unit

theorem lookups_fail_together_of_palletCallback :
    ∃ T, Table.ofSession [] [] false = .ok T ∧ Readable palletCallback ∧
      T.exported palletCallback = .error (.unmappable pallet) ∧
      ∀ e e', T.exportExpr e palletCallback = .error (.unmappable pallet) ∧
        T.importExpr e' palletCallback = .error (.unmappable pallet) := by
  have hread : Readable palletCallback := by decide
  have hshown : builtinTable.exported palletCallback = .error (.unmappable pallet) := by decide
  refine ⟨builtinTable, ofSession_builtinTable, hread, hshown, fun e e' => ?_⟩
  have h := lookups_fail_together ofSession_builtinTable palletCallback
  obtain ⟨hexport, himport⟩ := h.together (h.written hread) e e'
  rw [hshown] at hexport himport
  exact ⟨verdict_eq_error_iff.1 hexport, verdict_eq_error_iff.1 himport⟩

end Session

section Apart

/-- An instance of a generic declaration that the session exports. -/
def boxOf (argument : Shape) : Shape := { name := "Box", package := "depot", args := [argument] }

def boxTable (argument : Shape) : Table :=
  ⟨sessionRules [(boxOf argument, "NumberBox")] [] false⟩

/-- The type under which the instance is shown. -/
def shownBox (argument : Shape) : Shape :=
  Shape.ofKey (wrapperKey (boxOf argument) "NumberBox" false)

def boxCallback (argument : Shape) : Shape :=
  .kotlin "Function1" [boxOf argument, .unit]

theorem ofSession_boxTable (argument : Shape) :
    Table.ofSession [(boxOf argument, "NumberBox")] [] false = .ok (boxTable argument) := by
  have hkeys : declaredKeys [(boxOf argument, "NumberBox")] = [] := rfl
  refine ofSession_eq_ok ?_
  rw [keys_sessionRules, hkeys]
  decide

theorem conversion?_boxOf (argument : Shape) :
    (boxTable argument).conversion? (boxOf argument) =
      .ok (some (.wrapper (wrapperKey (boxOf argument) "NumberBox" false))) := by
  have hnone : keyConversion? [(boxOf argument, "NumberBox")] [] false (boxOf argument).key =
      none := by rfl
  have hcheck : (boxOf argument).checkFunction = .ok false := by rfl
  have hinstance : instanceConversion? [(boxOf argument, "NumberBox")] false (boxOf argument) =
      some (.wrapper (wrapperKey (boxOf argument) "NumberBox" false)) := by
    simp [instanceConversion?, boxOf]
  rw [conversion?_ofSession (ofSession_boxTable argument), hnone, hcheck]
  simp [hinstance, Except.map]

theorem conversion?_boxCallback (argument : Shape) :
    (boxTable argument).conversion? (boxCallback argument) = .ok (some .function) := by
  have hnone : keyConversion? [(boxOf argument, "NumberBox")] [] false (boxCallback argument).key =
      none := by rfl
  rw [conversion?_ofSession (ofSession_boxTable argument), hnone, boxCallback, checkFunction_unary]
  rfl

theorem conversion?_boxTable_unit (argument : Shape) :
    (boxTable argument).conversion? .unit = .ok (some .identity) := by
  have hkey : keyConversion? [(boxOf argument, "NumberBox")] [] false Shape.unit.key =
      some .identity := by rfl
  rw [conversion?_ofSession (ofSession_boxTable argument), hkey]

theorem exported_boxOf (argument : Shape) :
    (boxTable argument).exported (boxOf argument) = .ok (shownBox argument) := by
  rw [Table.exported_eq, conversion?_boxOf]
  rfl

theorem exported_boxCallback (argument : Shape) :
    ∃ s', (boxTable argument).exported (boxCallback argument) = .ok s' := by
  have hunit : (boxTable argument).exported .unit = .ok .unit := by
    rw [Table.exported_eq, conversion?_boxTable_unit]
  have hargs : (boxCallback argument).args = [boxOf argument, .unit] := rfl
  refine ⟨{ boxCallback argument with args := [shownBox argument, .unit] }, ?_⟩
  rw [Table.exported_eq, conversion?_boxCallback]
  simp only [hargs, Table.exportedAll, exported_boxOf, hunit]
  rfl

/-- The lambda for the callback writes out the type of its parameter and no other type. -/
theorem written_boxCallback (argument : Shape) (d : Direction) :
    (boxTable argument).written d (boxCallback argument) =
      (boxTable argument).writtenType d (boxOf argument) := by
  have hargs : (boxCallback argument).args = [boxOf argument, .unit] := rfl
  rw [Table.written_eq, conversion?_boxCallback]
  simp [hargs, Table.writtenCall, Table.written_eq, conversion?_boxOf, conversion?_boxTable_unit]

/-- An argument may hold a number that cannot be read. -/
theorem not_readable_boxOf {count : Nat}
    (h : Text.maxDigits < count) :
    ¬ Readable (boxOf (longNumber count)) := by
  intro hread
  have hnumber := ((readable_iff _).1 hread).2 _ List.mem_cons_self
  rw [readable_iff, overlong?_longNumber h] at hnumber
  exact Option.some_ne_none _ hnumber.1

/-- The wrapper of an instance has a name of its own, so that a callback on the instance can be
exported where it cannot be imported. -/
theorem exists_lookups_apart :
    ∃ exported T s, Table.ofSession exported [] false = .ok T ∧
      (∃ s', T.exported s = .ok s') ∧
      (∀ e, ∃ x, T.exportExpr e s = .ok x) ∧
      ∀ e x, T.importExpr e s ≠ .ok x := by
  let argument := longNumber (Text.maxDigits + 1)
  have hshown := exported_boxCallback argument
  have hverdict := verdict_eq_ok_iff.2 hshown
  refine ⟨_, boxTable argument, boxCallback argument, ofSession_boxTable argument, hshown,
    fun e => ?_, fun e x hx => ?_⟩
  · have hread : Readable (shownBox argument) :=
      readable_of_args_nil (overlong?_wrapperKey (boxOf argument) "NumberBox" false false) rfl
    refine ((boxTable argument).convertsAsShown _ .exporting e).exists_ok_iff.2 ⟨hverdict, ?_⟩
    rw [written_boxCallback, Table.writtenType, exported_boxOf]
    exact List.forall_mem_singleton.2 hread
  · have hread := (((boxTable argument).convertsAsShown _ .importing e).ok x hx).2
    rw [written_boxCallback] at hread
    exact not_readable_boxOf (Nat.lt_succ_self _) (hread _ (List.mem_singleton_self _))

end Apart

end Mapping
end Facade
