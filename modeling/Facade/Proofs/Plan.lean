import Facade.Proofs.Typing

/-!
# Plans of conversions

A plan says how values of a type are converted, as a tree that follows the shape: what is done to
the elements of a collection, to the parameters and to the result of a function.  A plan has two
types, that of the native values and that of the shown ones.

**Input.**  A well-formed shape: arrays and lists have one argument, exceptions and declarations
without type parameters have none.

**Results.**
* `exportedAll_concat`: the arguments of a function type are shown one by one.
* `plan_types`: the two types of the plan of a shape are the types of the shape and of the shape it
  is shown as.
-/

namespace Facade

namespace Shape

mutual

/-- Induction over a shape and its type arguments at every depth. -/
@[elab_as_elim]
theorem induction {P : Shape → Prop}
    (step : ∀ name package args nullable,
      (∀ a ∈ args, P a) → P ⟨name, package, args, nullable⟩) :
    (s : Shape) → P s
  | ⟨name, package, args, nullable⟩ => step name package args nullable (inductionAll step args)

theorem inductionAll {P : Shape → Prop}
    (step : ∀ name package args nullable,
      (∀ a ∈ args, P a) → P ⟨name, package, args, nullable⟩) :
    (args : List Shape) → ∀ a ∈ args, P a
  | [] => List.forall_mem_nil P
  | s :: rest => List.forall_mem_cons.2 ⟨induction step s, inductionAll step rest⟩

end

end Shape

namespace Mapping

open Code

section WellFormed

variable (exported : List (Shape × String)) (extra : List Shape)

/-- The number of type arguments fits the type, as far as conversions depend on it. -/
structure Fits (u : Shape) : Prop where
  collection : u.key = Shape.array.key ∨ u.key = Shape.list.key → u.args.length = 1
  exception : u.key ∈ exceptionKeys extra → u.args = []
  declared : ∀ entry ∈ exported, entry.1.args = [] → u.key = entry.1.key → u.args = []

instance (u : Shape) : Decidable (Fits exported extra u) :=
  decidable_of_iff
    ((u.key = Shape.array.key ∨ u.key = Shape.list.key → u.args.length = 1) ∧
      (u.key ∈ exceptionKeys extra → u.args = []) ∧
      ∀ entry ∈ exported, entry.1.args = [] → u.key = entry.1.key → u.args = [])
    ⟨fun h => ⟨h.1, h.2.1, h.2.2⟩, fun h => ⟨h.collection, h.exception, h.declared⟩⟩

/-- The numbers of type arguments fit at every depth. -/
def WellFormed (s : Shape) : Prop :=
  ∀ u ∈ s.parts, Fits exported extra u

instance (s : Shape) : Decidable (WellFormed exported extra s) :=
  inferInstanceAs (Decidable (∀ u ∈ s.parts, Fits exported extra u))

variable {exported extra}

theorem WellFormed.fits {s : Shape}
    (h : WellFormed exported extra s) :
    Fits exported extra s :=
  h s s.self_mem_parts

theorem parts_eq (s : Shape) :
    s.parts = s :: s.args.flatMap Shape.parts := by
  obtain ⟨name, package, args, nullable⟩ := s
  rw [Shape.parts, Shape.partsAll_eq_flatMap]

theorem parts_subset_of_mem_args {s a : Shape}
    (ha : a ∈ s.args) :
    a.parts ⊆ s.parts := by
  intro u hu
  rw [parts_eq]
  exact List.mem_cons_of_mem _ (List.mem_flatMap.2 ⟨a, ha, hu⟩)

/-- What holds of a type and of the parts of its arguments holds of all its parts. -/
theorem forall_mem_parts {P : Shape → Prop} {s : Shape}
    (hs : P s)
    (hargs : ∀ a ∈ s.args, ∀ u ∈ a.parts, P u) :
    ∀ u ∈ s.parts, P u := by
  intro u hu
  rw [parts_eq, List.mem_cons, List.mem_flatMap] at hu
  rcases hu with rfl | ⟨a, ha, hu⟩
  · exact hs
  · exact hargs a ha u hu

theorem WellFormed.of_mem_args {s a : Shape}
    (h : WellFormed exported extra s)
    (ha : a ∈ s.args) :
    WellFormed exported extra a :=
  fun u hu => h u (parts_subset_of_mem_args ha hu)

/-- Every number in the shape can be read. -/
def Readable (s : Shape) : Prop :=
  ∀ u ∈ s.parts, u.overlong? = none

instance (s : Shape) : Decidable (Readable s) :=
  inferInstanceAs (Decidable (∀ u ∈ s.parts, u.overlong? = none))

/-- The numbers of a type can be read exactly if its own can and those of its arguments can. -/
theorem readable_iff (s : Shape) :
    Readable s ↔ s.overlong? = none ∧ ∀ a ∈ s.args, Readable a := by
  simp only [Readable, parts_eq s, List.mem_cons, List.mem_flatMap]
  constructor
  · intro h
    exact ⟨h s (.inl rfl), fun a ha u hu => h u (.inr ⟨a, ha, hu⟩)⟩
  · rintro ⟨hself, hargs⟩ u (rfl | ⟨a, ha, hu⟩)
    · exact hself
    · exact hargs a ha u hu

/-- A collection that fits has one element type. -/
theorem Fits.exists_element {u : Shape}
    (h : Fits exported extra u)
    (hkey : u.key = Shape.array.key ∨ u.key = Shape.list.key) :
    ∃ a, u.args = [a] :=
  List.length_eq_one_iff.1 (h.collection hkey)

end WellFormed

/-- How values of a type are converted, with the functions that a session adds to the language. -/
inductive Plan (S : Signature) where
  /-- Values stay as they are. -/
  | keep (type : Ty)
  | long
  | longArray
  | array (element : Plan S)
  | list (element : Plan S)
  | exception (type : Key) (nullable : Bool) (h : type ∈ S.exceptions)
  | wrapper (native : Shape) (type : Key) (h : (native, type) ∈ S.wrappers)
  | function (params : List (Plan S)) (result : Plan S)
  /-- Null stays null. -/
  | nullable (plan : Plan S)

namespace Plan

variable {S : Signature}

mutual

/-- The type of native values. -/
def native : Plan S → Ty
  | .keep t => t
  | .long => .object .long
  | .longArray => .longArray
  | .array p => .array p.native
  | .list p => .list p.native
  | .exception k b _ => (Ty.object (.ofKey k)).mark b
  | .wrapper s _ _ => .object s
  | .function ps r => .function (nativeAll ps) r.native
  | .nullable p => .nullable p.native

/-- The types of native arguments. -/
def nativeAll : List (Plan S) → List Ty
  | [] => []
  | p :: ps => p.native :: nativeAll ps

end

mutual

/-- The type of shown values. -/
def shown : Plan S → Ty
  | .keep t => t
  | .long => .object .double
  | .longArray => .array (.object .double)
  | .array p => .array p.shown
  | .list p => .array p.shown
  | .exception _ b _ => (Ty.object .error).mark b
  | .wrapper _ k _ => .object (.ofKey k)
  | .function ps r => .function (shownAll ps) r.shown
  | .nullable p => .nullable p.shown

/-- The types of shown arguments. -/
def shownAll : List (Plan S) → List Ty
  | [] => []
  | p :: ps => p.shown :: shownAll ps

end

/-- The type of the values that a conversion starts from. -/
def type (d : Direction) (p : Plan S) : Ty :=
  match d with
  | .exporting => p.native
  | .importing => p.shown

/-- The types of the arguments that a conversion starts from. -/
def typeAll (d : Direction) (ps : List (Plan S)) : List Ty :=
  match d with
  | .exporting => nativeAll ps
  | .importing => shownAll ps

/-- The plan for a type that may be null. -/
def mark : Bool → Plan S → Plan S
  | false, p => p
  | true, p => .nullable p

/-- Whether nothing is done to any value. -/
def isIdentity : Plan S → Bool
  | .keep _ => true
  | .array p => p.isIdentity
  | .nullable p => p.isIdentity
  | _ => false

@[simp] theorem native_mark (b : Bool) (p : Plan S) :
    (p.mark b).native = p.native.mark b := by
  cases b <;> rfl

@[simp] theorem shown_mark (b : Bool) (p : Plan S) :
    (p.mark b).shown = p.shown.mark b := by
  cases b <;> rfl

@[simp] theorem type_mark (d : Direction) (b : Bool) (p : Plan S) :
    (p.mark b).type d = (p.type d).mark b := by
  cases d <;> simp [type]

@[simp] theorem isIdentity_mark (b : Bool) (p : Plan S) :
    (p.mark b).isIdentity = p.isIdentity := by
  cases b <;> rfl

theorem nativeAll_eq_map (ps : List (Plan S)) :
    nativeAll ps = ps.map native := by
  induction ps with
  | nil => rfl
  | cons p ps ih => simp [nativeAll, ih]

theorem shownAll_eq_map (ps : List (Plan S)) :
    shownAll ps = ps.map shown := by
  induction ps with
  | nil => rfl
  | cons p ps ih => simp [shownAll, ih]

theorem typeAll_eq_map (d : Direction) (ps : List (Plan S)) :
    typeAll d ps = ps.map (type d) := by
  cases d with
  | exporting => exact nativeAll_eq_map ps
  | importing => exact shownAll_eq_map ps

/-- A plan that changes nothing shows the type itself. -/
theorem native_eq_shown {p : Plan S}
    (h : p.isIdentity = true) :
    p.native = p.shown := by
  cases p with
  | keep t => rfl
  | array p => rw [native, shown, native_eq_shown (p := p) h]
  | nullable p => rw [native, shown, native_eq_shown (p := p) h]
  | _ => simp [isIdentity] at h

end Plan

namespace Table

mutual

/-- The plan of a shape. -/
def plan (t : Table) (S : Signature) : Shape → Plan S
  | ⟨name, package, args, nullable⟩ =>
      let s : Shape := ⟨name, package, args, nullable⟩
      match t.conversion? s with
      | .ok (some .long) => Plan.long.mark nullable
      | .ok (some .longArray) => Plan.longArray.mark nullable
      | .ok (some .array) => (Plan.array (t.planFirst S args)).mark nullable
      | .ok (some .list) => (Plan.list (t.planFirst S args)).mark nullable
      | .ok (some (.exception k)) =>
          if h : k ∈ S.exceptions then .exception k nullable h else .keep s.ty
      | .ok (some .function) =>
          let plans := t.planAll S args
          (Plan.function plans.dropLast (plans.getLastD (.keep s.ty))).mark nullable
      | .ok (some (.wrapper k)) =>
          if h : (s.withNullable false, k) ∈ S.wrappers then (Plan.wrapper _ k h).mark nullable
          else .keep s.ty
      | _ => .keep s.ty

/-- The plans of some shapes. -/
def planAll (t : Table) (S : Signature) : List Shape → List (Plan S)
  | [] => []
  | s :: rest => t.plan S s :: t.planAll S rest

/-- The plan of the elements of a collection. -/
def planFirst (t : Table) (S : Signature) : List Shape → Plan S
  | [] => .keep (.nullable (.object .any))
  | s :: _ => t.plan S s

end

section Equations

variable {S : Signature} {t : Table} {s a : Shape}

theorem planAll_eq_map (shapes : List Shape) :
    t.planAll S shapes = shapes.map (t.plan S) := by
  induction shapes with
  | nil => rfl
  | cons s rest ih => simp [planAll, ih]

theorem plan_long
    (hc : t.conversion? s = .ok (some .long)) :
    t.plan S s = Plan.long.mark s.nullable := by
  obtain ⟨name, package, args, nullable⟩ := s
  rw [plan, hc]

theorem plan_longArray
    (hc : t.conversion? s = .ok (some .longArray)) :
    t.plan S s = Plan.longArray.mark s.nullable := by
  obtain ⟨name, package, args, nullable⟩ := s
  rw [plan, hc]

theorem plan_array
    (hc : t.conversion? s = .ok (some .array))
    (hargs : s.args = [a]) :
    t.plan S s = (Plan.array (t.plan S a)).mark s.nullable := by
  obtain ⟨name, package, args, nullable⟩ := s
  obtain rfl : args = [a] := hargs
  rw [plan, hc]
  rfl

theorem plan_list
    (hc : t.conversion? s = .ok (some .list))
    (hargs : s.args = [a]) :
    t.plan S s = (Plan.list (t.plan S a)).mark s.nullable := by
  obtain ⟨name, package, args, nullable⟩ := s
  obtain rfl : args = [a] := hargs
  rw [plan, hc]
  rfl

theorem plan_exception {k : Key}
    (hc : t.conversion? s = .ok (some (.exception k)))
    (hk : k ∈ S.exceptions) :
    t.plan S s = .exception k s.nullable hk := by
  obtain ⟨name, package, args, nullable⟩ := s
  rw [plan, hc]
  simp [hk]

theorem plan_wrapper {k : Key}
    (hc : t.conversion? s = .ok (some (.wrapper k)))
    (hk : (s.withNullable false, k) ∈ S.wrappers) :
    t.plan S s = (Plan.wrapper _ k hk).mark s.nullable := by
  obtain ⟨name, package, args, nullable⟩ := s
  rw [plan, hc]
  simp [hk]

/-- The plan of a function type, from those of its parameters and its result. -/
theorem plan_function {result : Shape} {params : List Shape}
    (hc : t.conversion? s = .ok (some .function))
    (hargs : s.args = params ++ [result]) :
    t.plan S s = (Plan.function (params.map (t.plan S)) (t.plan S result)).mark s.nullable := by
  obtain ⟨name, package, args, nullable⟩ := s
  obtain rfl : args = params ++ [result] := hargs
  rw [plan, hc]
  simp [planAll_eq_map]

end Equations

/-- What is shown for a type, one case for each kind of rule. -/
theorem exported_eq (t : Table) (s : Shape) :
    t.exported s =
      match t.conversion? s with
      | .error o => .error (.overlong o)
      | .ok none => do
          if (← t.exportedAll s.args) = s.args then .ok s else .error (.unmappable s)
      | .ok (some .identity) => .ok s
      | .ok (some .long) => .ok (Shape.double.withNullable s.nullable)
      | .ok (some .longArray) => .ok (Shape.arrayOf Shape.double s.nullable)
      | .ok (some .array) => do .ok (Shape.arrayOf (← t.exportedFirst s.key s.args) s.nullable)
      | .ok (some .list) => do .ok (Shape.arrayOf (← t.exportedFirst s.key s.args) s.nullable)
      | .ok (some (.exception _)) => .ok (Shape.error.withNullable s.nullable)
      | .ok (some .function) => do .ok (s.withArgs (← t.exportedAll s.args))
      | .ok (some (.wrapper type)) => .ok ((Shape.ofKey type).withNullable s.nullable)
      | .ok (some (.template target _ _)) => .ok ((target.getD s).withNullable s.nullable) := by
  obtain ⟨name, package, args, nullable⟩ := s
  unfold exported
  rfl

theorem exportedAll_eq_mapM (t : Table) (shapes : List Shape) :
    t.exportedAll shapes = shapes.mapM t.exported := by
  induction shapes with
  | nil => rfl
  | cons s rest ih =>
      rw [exportedAll, List.mapM_cons, ih]
      rfl

/-- The types shown for the arguments of a function are those of its parameters and then that of its
result. -/
theorem exportedAll_concat
    {t : Table} {params shapes : List Shape} {result : Shape}
    (h : t.exportedAll (params ++ [result]) = .ok shapes) :
    ∃ params' result', shapes = params' ++ [result'] ∧
      List.Forall₂ (fun s s' => t.exported s = .ok s') params params' ∧
      t.exported result = .ok result' := by
  induction params generalizing shapes with
  | nil =>
      rw [List.nil_append, exportedAll] at h
      obtain ⟨result', hresult, h⟩ := Outcome.bind_eq_ok_iff.1 h
      rw [exportedAll] at h
      obtain rfl : [result'] = shapes := Except.ok.inj h
      exact ⟨[], result', rfl, .nil, hresult⟩
  | cons s rest ih =>
      rw [List.cons_append, exportedAll] at h
      obtain ⟨s', hs, h⟩ := Outcome.bind_eq_ok_iff.1 h
      obtain ⟨rest', hrest, h⟩ := Outcome.bind_eq_ok_iff.1 h
      obtain rfl : s' :: rest' = shapes := Except.ok.inj h
      obtain ⟨params', result', rfl, hparams, hresult⟩ := ih hrest
      exact ⟨s' :: params', result', rfl, .cons hs hparams, hresult⟩

end Table

/-- What a session adds to the language of generated code. -/
def sessionSignature (exported : List (Shape × String)) (extra : List Shape) (erase : Bool)
    (members : String → Ty → Ty → Prop) : Signature where
  wrappers := exported.map fun entry =>
    (entry.1.withNullable false, wrapperKey entry.1 entry.2 erase)
  exceptions := exceptionKeys extra
  members := members

/-- How a table shows a shape, with what conversions depend on: the rule that is found, the types
on both sides, the arguments that are shown in turn. -/
inductive Shows (S : Signature) (T : Table) : Shape → Shape → Prop
  | keep {s : Shape}
      (hconvert : ∀ d e, T.convert d e s = .ok e)
      (hplan : T.plan S s = .keep s.ty) :
      Shows S T s s
  | long {s : Shape}
      (hc : T.conversion? s = .ok (some .long))
      (hty : s.ty = (Ty.object .long).mark s.nullable) :
      Shows S T s (Shape.double.withNullable s.nullable)
  | longArray {s : Shape}
      (hc : T.conversion? s = .ok (some .longArray))
      (hty : s.ty = Ty.longArray.mark s.nullable) :
      Shows S T s (Shape.arrayOf .double s.nullable)
  | array {s a a' : Shape}
      (hc : T.conversion? s = .ok (some .array))
      (hargs : s.args = [a])
      (hty : s.ty = (Ty.array a.ty).mark s.nullable)
      (ha : Shows S T a a') :
      Shows S T s (Shape.arrayOf a' s.nullable)
  | list {s a a' : Shape}
      (hc : T.conversion? s = .ok (some .list))
      (hargs : s.args = [a])
      (hty : s.ty = (Ty.list a.ty).mark s.nullable)
      (ha : Shows S T a a') :
      Shows S T s (Shape.arrayOf a' s.nullable)
  | exception {s : Shape}
      (hc : T.conversion? s = .ok (some (.exception s.key)))
      (hk : s.key ∈ S.exceptions)
      (hty : s.ty = (Ty.object (.ofKey s.key)).mark s.nullable) :
      Shows S T s (Shape.error.withNullable s.nullable)
  | wrapper {s : Shape} {k : Key}
      (hc : T.conversion? s = .ok (some (.wrapper k)))
      (hk : (s.withNullable false, k) ∈ S.wrappers)
      (hty : s.ty = (Ty.object (s.withNullable false)).mark s.nullable)
      (hty' : ((Shape.ofKey k).withNullable s.nullable).ty =
        (Ty.object (.ofKey k)).mark s.nullable)
      (hread : ((Shape.ofKey k).withNullable s.nullable).overlong? = none) :
      Shows S T s ((Shape.ofKey k).withNullable s.nullable)
  | function {s result result' : Shape} {params params' : List Shape}
      (hc : T.conversion? s = .ok (some .function))
      (hfunction : s.isFunction = true)
      (hargs : s.args = params ++ [result])
      (hparams : List.Forall₂ (fun p p' => T.exported p = .ok p') params params')
      (hshow : ∀ p ∈ params, ∀ p', T.exported p = .ok p' → Shows S T p p')
      (hresult : Shows S T result result') :
      Shows S T s (s.withArgs (params' ++ [result']))

theorem withNullable_eq_of_key {s native : Shape}
    (hkey : s.key = native.key)
    (hargs : s.args = native.args) :
    s.withNullable false = native.withNullable false := by
  obtain ⟨name, package, args, nullable⟩ := s
  obtain ⟨name', package', args', nullable'⟩ := native
  simp only [Shape.key, Key.mk.injEq] at hkey
  obtain ⟨rfl, rfl⟩ := hkey
  obtain rfl : args = args' := hargs
  rfl

theorem withNullable_eq_ofKey {s : Shape}
    (hargs : s.args = []) :
    s.withNullable false = Shape.ofKey s.key := by
  obtain ⟨name, package, args, nullable⟩ := s
  obtain rfl : args = [] := hargs
  rfl

theorem isFunction_of_args_nil {s : Shape}
    (hargs : s.args = []) :
    s.isFunction = false := by
  simp [Shape.isFunction, hargs]

theorem isFunction_withArgs {s : Shape} {args : List Shape}
    (h : args.length = s.args.length) :
    (s.withArgs args).isFunction = s.isFunction := by
  have hempty : args.isEmpty = s.args.isEmpty := by
    rw [Bool.eq_iff_iff, List.isEmpty_iff_length_eq_zero, List.isEmpty_iff_length_eq_zero, h]
  simp only [Shape.isFunction, Shape.withArgs, h, hempty]

section Session

variable {exported : List (Shape × String)} {extra : List Shape} {erase : Bool} {T : Table}
variable (members : String → Ty → Ty → Prop)

/-- Every exported type has its wrapper in the signature of the session. -/
theorem mem_wrappers {native : Shape} {name : String}
    (h : (native, name) ∈ exported) :
    (native.withNullable false, wrapperKey native name erase) ∈
      (sessionSignature exported extra erase members).wrappers :=
  List.mem_map.2 ⟨(native, name), h, rfl⟩

/-- What a session shows for a well-formed type follows the rules for showing, by induction over the
type. -/
theorem shows_of_exported
    (hT : Table.ofSession exported extra erase = .ok T) (s : Shape) :
    ∀ s', WellFormed exported extra s → T.exported s = .ok s' →
      Shows (sessionSignature exported extra erase members) T s s' := by
  induction s using Shape.induction with
  | step name package args nullable ih =>
      intro s' hwf hs
      have hfits := hwf.fits
      have hexported := hs
      rw [Table.exported] at hs
      set s : Shape := ⟨name, package, args, nullable⟩ with hsdef
      cases hc : T.conversion? s with
      | error o => simp [hc] at hs
      | ok c =>
          rw [hc] at hs
          cases lookup_ofSession hT hc with
          | identity hkey =>
              obtain rfl : s = s' := Except.ok.inj hs
              exact .keep (fun d e => by rw [hsdef, Table.convert, ← hsdef, hc])
                (by rw [hsdef, Table.plan, ← hsdef, hc])
          | long hkey =>
              obtain rfl : Shape.double.withNullable nullable = s' := Except.ok.inj hs
              exact .long hc (Shape.ty_of_long hkey)
          | longArray hkey =>
              obtain rfl : Shape.arrayOf Shape.double nullable = s' := Except.ok.inj hs
              exact .longArray hc (Shape.ty_of_longArray hkey)
          | array hkey =>
              obtain ⟨a, hargs⟩ := hfits.exists_element (.inl hkey)
              obtain rfl : args = [a] := hargs
              obtain ⟨a', ha, hs⟩ := Outcome.bind_eq_ok_iff.1 hs
              obtain rfl : Shape.arrayOf a' nullable = s' := Except.ok.inj hs
              exact .array hc rfl (Shape.ty_of_array hkey rfl)
                (ih a (by simp) a' (hwf.of_mem_args (by simp [hsdef])) ha)
          | list hkey =>
              obtain ⟨a, hargs⟩ := hfits.exists_element (.inr hkey)
              obtain rfl : args = [a] := hargs
              obtain ⟨a', ha, hs⟩ := Outcome.bind_eq_ok_iff.1 hs
              obtain rfl : Shape.arrayOf a' nullable = s' := Except.ok.inj hs
              exact .list hc rfl (Shape.ty_of_list hkey rfl)
                (ih a (by simp) a' (hwf.of_mem_args (by simp [hsdef])) ha)
          | exception hkey hnew =>
              obtain rfl : Shape.error.withNullable nullable = s' := Except.ok.inj hs
              have hnone := hfits.exception hkey
              have hty := Shape.ty_of_not_mem_builtinKeys hnew (isFunction_of_args_nil hnone)
              rw [withNullable_eq_ofKey hnone] at hty
              exact .exception hc hkey hty
          | @declared native exportName hmem hargs hkey hnew =>
              obtain rfl := Except.ok.inj hs
              have hnone := hfits.declared _ hmem hargs hkey
              have hsame := withNullable_eq_of_key hkey (hnone.trans hargs.symm)
              exact .wrapper hc (hsame ▸ mem_wrappers members hmem)
                (Shape.ty_of_not_mem_builtinKeys hnew (isFunction_of_args_nil hnone))
                (ty_wrapperKey native exportName erase nullable)
                (overlong?_wrapperKey native exportName erase nullable)
          | function hfunction hread =>
              obtain ⟨args', hargs', hs⟩ := Outcome.bind_eq_ok_iff.1 hs
              obtain rfl : s.withArgs args' = s' := Except.ok.inj hs
              have hne : args ≠ [] := Shape.args_ne_nil_of_isFunction hfunction
              have hsplit := (List.dropLast_concat_getLast hne).symm
              rw [hsplit] at hargs'
              obtain ⟨params', result', rfl, hparams, hresult⟩ := Table.exportedAll_concat hargs'
              refine .function hc hfunction hsplit hparams ?_ ?_
              · intro p hp p' hp'
                have hmem := List.dropLast_subset args hp
                exact ih p hmem p' (hwf.of_mem_args hmem) hp'
              · have hmem := List.getLast_mem hne
                exact ih _ hmem result' (hwf.of_mem_args hmem) hresult
          | @instantiated native exportName hmem hkey hargs hnew hfunction =>
              obtain rfl := Except.ok.inj hs
              have hsame := withNullable_eq_of_key hkey hargs
              exact .wrapper hc (hsame ▸ mem_wrappers members hmem)
                (Shape.ty_of_not_mem_builtinKeys hnew hfunction)
                (ty_wrapperKey native exportName erase nullable)
                (overlong?_wrapperKey native exportName erase nullable)
          | unknown hnew hfunction =>
              obtain ⟨args', hargs', hs⟩ := Outcome.bind_eq_ok_iff.1 hs
              split at hs
              · obtain rfl : s = s' := Except.ok.inj hs
                refine .keep (fun d e => ?_) (by rw [hsdef, Table.plan, ← hsdef, hc])
                rw [hsdef, Table.convert, ← hsdef, hc]
                simp [hexported, Except.map]
              · simp at hs

end Session

section Types

variable {S : Signature} {T : Table}

/-- A plan goes from the type to the type that is shown for it. -/
theorem Shows.plan_types {s s' : Shape}
    (h : Shows S T s s') :
    (T.plan S s).native = s.ty ∧ (T.plan S s).shown = s'.ty := by
  induction h with
  | keep hconvert hplan => simp [hplan, Plan.native, Plan.shown]
  | long hc hty => simp [Table.plan_long hc, hty, Shape.ty_double, Plan.native, Plan.shown]
  | longArray hc hty =>
      have hdouble : Shape.double.ty = Ty.object .double := Shape.ty_double false
      simp [Table.plan_longArray hc, hty, hdouble, Shape.ty_arrayOf, Plan.native, Plan.shown]
  | array hc hargs hty ha ih =>
      simp [Table.plan_array hc hargs, hty, Shape.ty_arrayOf, Plan.native, Plan.shown, ih]
  | list hc hargs hty ha ih =>
      simp [Table.plan_list hc hargs, hty, Shape.ty_arrayOf, Plan.native, Plan.shown, ih]
  | exception hc hk hty =>
      simp [Table.plan_exception hc hk, hty, Shape.ty_error, Plan.native, Plan.shown]
  | wrapper hc hk hty hty' hread =>
      simp [Table.plan_wrapper hc hk, hty, hty', Plan.native, Plan.shown]
  | @function s result result' params params' hc hfunction hargs hparams hshow hresult ih ihr =>
      have hlength : (params' ++ [result']).length = s.args.length := by
        simp [hargs, hparams.length_eq]
      have hfunction' := (isFunction_withArgs hlength).trans hfunction
      have hall : params.map (fun p => (T.plan S p).native) = params.map Shape.ty ∧
          params.map (fun p => (T.plan S p).shown) = params'.map Shape.ty := by
        clear hargs hlength hfunction' hshow
        induction hparams with
        | nil => simp
        | cons hp hrest ihrest =>
            obtain ⟨hn, hs⟩ := ih _ List.mem_cons_self _ hp
            obtain ⟨hns, hss⟩ := ihrest fun p hmem => ih p (List.mem_cons_of_mem _ hmem)
            simp [hn, hs, hns, hss]
      rw [Table.plan_function hc hargs, Shape.ty_of_isFunction hfunction hargs,
        Shape.ty_of_isFunction hfunction' rfl]
      simp [Plan.native, Plan.shown, Plan.nativeAll_eq_map, Plan.shownAll_eq_map,
        Function.comp_def, hall, ihr, Shape.withArgs]

end Types

end Mapping
end Facade
