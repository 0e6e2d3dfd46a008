import Facade.Proofs.Shadowing

/-!
# Types that generated code names without their package

An expression is written before it is known which file it goes to.  So it names a type by its simple
name if the type needs no import, and by its dotted name otherwise.

**Input.**  A table of a session, a direction and a type.

**Algorithm.**  Types are named in three places: a lambda writes out the types of its parameters, an
exception is cast to its type, and an error is made by the constructor of its type.  Elements,
arguments and results are converted on their own.

**Results.**
* `Table.mem_spelled_convert`: the types that a conversion names.
-/

namespace Facade

/-- The types that the text of a shape names without their package; function types have no name
there. -/
def Shape.spelled (s : Shape) : List Key :=
  (s.parts.filter fun u => !u.isFunction && u.package ∈ defaultImports).map key

namespace Code

def Binder.spelled (b : Binder) : List Key :=
  b.type.toList.flatMap Shape.spelled

namespace Expr

/-- The label of an argument passed by name. -/
def label? : Expr → Option String
  | .named label _ => some label
  | _ => none

/-- The type whose constructor is called: an error is made from its cause. -/
def constructed : Expr → List Expr → List Key
  | .name ident, [.named label _] =>
      if ident = Shape.error.name ∧ label = "cause" then [Shape.error.key] else []
  | _, _ => []

mutual

/-- The types that an expression names without their package. -/
def spelled : Expr → List Key
  | .text _ => []
  | .name _ => []
  | .member target _ _ => target.spelled
  | .call function args => constructed function args ++ function.spelled ++ spelledAll args
  | .named _ value => value.spelled
  | .cast value type _ => value.spelled ++ (if type.package = "kotlin" then [type] else [])
  | .trailing function block => function.spelled ++ block.spelled
  | .implicit body => body.spelled
  | .lambda params body => params.flatMap Binder.spelled ++ body.spelled
  | .typed _ args => args.flatMap Shape.spelled
  | .safeCast value _ => value.spelled
  | .orElse value other => value.spelled ++ other.spelled
  | .dispatch branches _ => branches.flatMap fun b => b.1.spelled

/-- The types that some expressions name without their package. -/
def spelledAll : List Expr → List Key
  | [] => []
  | e :: rest => e.spelled ++ spelledAll rest

end

theorem spelledAll_eq_flatMap (es : List Expr) :
    spelledAll es = es.flatMap spelled := by
  induction es with
  | nil => rfl
  | cons e rest ih => simp [spelledAll, ih]

/-- Several pieces of code spell the types that any of them spells. -/
theorem mem_spelledAll {es : List Expr} {k : Key} :
    k ∈ spelledAll es ↔ ∃ e ∈ es, k ∈ e.spelled := by
  rw [spelledAll_eq_flatMap, List.mem_flatMap]

theorem spelledAll_eq_nil_iff {es : List Expr} :
    spelledAll es = [] ↔ ∀ e ∈ es, e.spelled = [] := by
  rw [spelledAll_eq_flatMap, List.flatMap_eq_nil_iff]

@[simp] theorem spelledAll_append (es es' : List Expr) :
    spelledAll (es ++ es') = spelledAll es ++ spelledAll es' := by
  simp [spelledAll_eq_flatMap]

theorem mem_spelledAll_flatMap {α : Type} {l : List α} {code : α → List Expr} {k : Key} :
    k ∈ spelledAll (l.flatMap code) ↔ ∃ a ∈ l, k ∈ spelledAll (code a) := by
  simp only [mem_spelledAll, List.mem_flatMap]
  constructor
  · rintro ⟨e, ⟨a, ha, he⟩, hk⟩
    exact ⟨a, ha, e, he, hk⟩
  · rintro ⟨a, ha, e, he, hk⟩
    exact ⟨e, ⟨a, ha, he⟩, hk⟩

theorem constructed_eq_nil {f : Expr} {args : List Expr}
    (h : ∀ a ∈ args, a.label? = none) :
    constructed f args = [] := by
  unfold constructed
  split
  · simp [label?] at h
  · rfl

section Forms

variable {e body f : Expr} {args : List Expr} {safe : Bool} {k : Key}

@[simp] theorem spelled_name (ident : String) :
    (Expr.name ident).spelled = [] :=
  rfl

@[simp] theorem spelled_it :
    Expr.it.spelled = [] :=
  rfl

@[simp] theorem spelled_self :
    Expr.self.spelled = [] :=
  rfl

@[simp] theorem spelled_member (m : String) :
    (Expr.member e safe m).spelled = e.spelled :=
  rfl

@[simp] theorem spelled_named (label : String) :
    (Expr.named label e).spelled = e.spelled :=
  rfl

@[simp] theorem spelled_implicit :
    (Expr.implicit e).spelled = e.spelled :=
  rfl

@[simp] theorem spelled_trailing :
    (Expr.trailing f body).spelled = f.spelled ++ body.spelled :=
  rfl

@[simp] theorem spelled_send (m : String) :
    (e.send safe m).spelled = e.spelled := by
  simp [send, spelled, spelledAll, constructed]

@[simp] theorem spelled_mapped :
    (e.mapped safe body).spelled = e.spelled ++ body.spelled :=
  rfl

/-- A call spells the types of the function and of its arguments. -/
theorem mem_spelled_call
    (h : ∀ a ∈ args, a.label? = none) :
    k ∈ (Expr.call f args).spelled ↔ k ∈ f.spelled ∨ ∃ a ∈ args, k ∈ a.spelled := by
  simp [spelled, constructed_eq_nil h, spelledAll_eq_flatMap]

/-- A lambda spells the types of its parameters and those of its body. -/
theorem mem_spelled_lambda {params : List Binder} :
    k ∈ (Expr.lambda params body).spelled ↔
      (∃ type ∈ params.filterMap Binder.type, k ∈ type.spelled) ∨ k ∈ body.spelled := by
  simp only [spelled, List.mem_append, List.mem_flatMap, Binder.spelled, Option.mem_toList,
    List.mem_filterMap]
  refine or_congr_left ?_
  constructor
  · rintro ⟨b, hb, type, htype, hk⟩
    exact ⟨type, ⟨b, hb, htype⟩, hk⟩
  · rintro ⟨type, ⟨b, hb, htype⟩, hk⟩
    exact ⟨b, hb, type, htype, hk⟩

end Forms

end Expr

end Code

namespace Mapping

open Code

/-- The type that the conversion of an exception names. -/
def Direction.raised (d : Direction) (type : Key) : List Key :=
  match d with
  | .importing => if type.package = "kotlin" then [type] else []
  | .exporting => [Shape.error.key]

namespace Direction

variable {k : Key}

/-- The code for an exception spells the type that it raises or casts to. -/
theorem mem_spelled_exception (d : Direction) (e : Expr) (nullable : Bool) (type : Key) :
    k ∈ (d.exception e nullable type).spelled ↔ k ∈ e.spelled ∨ k ∈ d.raised type := by
  have herror : ∀ cause : Expr, k ∈ (errorOf cause).spelled ↔ k ∈ cause.spelled ∨
      k ∈ [Shape.error.key] := by
    intro cause
    simp [errorOf, Expr.spelled, Expr.spelledAll, Expr.constructed, or_comm]
  cases d with
  | importing => simp [exception, raised, Expr.spelled]
  | exporting =>
      cases nullable with
      | false => simpa [exception, raised] using herror e
      | true => simpa [exception, raised] using or_congr_right (herror .it)

theorem length_lt_exception (d : Direction) (e : Expr) (nullable : Bool) (type : Key) :
    e.source.length < (d.exception e nullable type).source.length := by
  cases d with
  | importing =>
      exact Nat.lt_trans (length_lt_member e nullable "cause") (length_lt_cast _ type nullable)
  | exporting =>
      cases nullable with
      | false =>
          have hopen : 0 < "(".length := by decide
          simp only [exception, errorOf, Bool.false_eq_true, if_false, Expr.source, Expr.sources,
            String.intercalate_singleton, String.length_append]
          omega
      | true => exact Nat.lt_trans (length_lt_member e true "let") (length_lt_trailing _ _)

theorem mem_spelled_guarded (e : Expr) (nullable : Bool) (params : List Binder) (body : Expr) :
    k ∈ (guarded e nullable (.lambda params body)).spelled ↔
      (nullable = true ∧ k ∈ e.spelled) ∨ k ∈ (Expr.lambda params body).spelled := by
  cases nullable with
  | false => simp [guarded]
  | true => simp [guarded, Expr.spelled, Binder.spelled]

end Direction

namespace Table

mutual

/-- The types that a conversion names without their package. -/
def spelled (t : Table) (d : Direction) : Shape → List Key
  | ⟨name, package, args, nullable⟩ =>
      match t.conversion? ⟨name, package, args, nullable⟩ with
      | .ok (some .array) => t.spelledFirst d args
      | .ok (some .list) => t.spelledFirst d args
      | .ok (some (.exception type)) => d.raised type
      | .ok (some .function) => t.spelledCall d args
      | _ => []

/-- The types that the conversion of an element names. -/
def spelledFirst (t : Table) (d : Direction) : List Shape → List Key
  | [] => []
  | s :: _ => t.spelled d s

/-- The types that the conversion of a function names: those of the parameters, which are written
out, and those that the conversions of arguments and result name. -/
def spelledCall (t : Table) (d : Direction) : List Shape → List Key
  | [] => []
  | [result] => t.spelled d result
  | param :: next :: rest =>
      (t.writtenType d param).flatMap Shape.spelled ++ t.spelled d.flip param ++
        t.spelledCall d (next :: rest)

end

section Session

variable {exported : List (Shape × String)} {extra : List Shape} {erase : Bool} {T : Table}
variable {d : Direction} {e x : Expr} {s : Shape} {k : Key}

/-- The types spelled by the code of a conversion, one case for each kind of rule. -/
theorem spelled_eq (T : Table) (d : Direction) (s : Shape) :
    T.spelled d s =
      match T.conversion? s with
      | .ok (some .array) => T.spelledFirst d s.args
      | .ok (some .list) => T.spelledFirst d s.args
      | .ok (some (.exception type)) => d.raised type
      | .ok (some .function) => T.spelledCall d s.args
      | _ => [] := by
  obtain ⟨name, package, args, nullable⟩ := s
  unfold spelled
  rfl

/-- The code for a function type spells the types of the parameters that are written, and what the
conversions of parameters and result spell. -/
theorem mem_spelledCall {params : List Shape} {result : Shape} :
    k ∈ T.spelledCall d (params ++ [result]) ↔
      (∃ p ∈ params, ∃ type ∈ T.writtenType d p, k ∈ type.spelled) ∨
        (∃ p ∈ params, k ∈ T.spelled d.flip p) ∨ k ∈ T.spelled d result := by
  induction params with
  | nil => simp [spelledCall]
  | cons p params ih =>
      obtain ⟨next, rest, hrest⟩ : ∃ next rest, params ++ [result] = next :: rest :=
        List.exists_cons_of_ne_nil (by simp)
      rw [List.cons_append, hrest, spelledCall, ← hrest, List.mem_append, List.mem_append, ih,
        List.mem_flatMap, List.exists_mem_cons_iff, List.exists_mem_cons_iff]
      grind

theorem writtenType_of_parameterType {p type : Shape}
    (h : T.parameterType d p = .ok type) :
    T.writtenType d p = [type] := by
  have hwritten := (parameterType_eq_ok_iff.1 h).1
  cases d with
  | importing => rw [writtenType, show type = p from hwritten]
  | exporting =>
      rw [writtenType, show T.exported p = .ok type from hwritten]
      rfl

/-- A conversion is not an argument passed by name. -/
theorem label?_of_convert
    (hT : Table.ofSession exported extra erase = .ok T)
    (he : e.label? = none)
    (h : T.convert d e s = .ok x) :
    x.label? = none := by
  cases hc : T.conversion? s with
  | error o => simp [convert_eq, hc] at h
  | ok c =>
      rw [convert_eq, hc] at h
      cases lookup_ofSession hT hc with
      | identity hkey =>
          obtain rfl := Except.ok.inj h
          exact he
      | long hkey =>
          obtain rfl := Except.ok.inj h
          cases d <;> rfl
      | longArray hkey =>
          obtain rfl := Except.ok.inj h
          cases d <;> rfl
      | array hkey =>
          obtain ⟨inner, -, h⟩ := Outcome.bind_eq_ok_iff.1 h
          obtain rfl := Except.ok.inj h
          rw [Direction.array]
          split
          · exact he
          · rfl
      | list hkey =>
          obtain ⟨inner, -, h⟩ := Outcome.bind_eq_ok_iff.1 h
          obtain rfl := Except.ok.inj h
          cases d <;> (rw [Direction.list]; split <;> rfl)
      | exception hkey hnew =>
          obtain rfl := Except.ok.inj h
          cases d with
          | importing => rfl
          | exporting =>
              rw [Direction.exception]
              split <;> rfl
      | declared hmem hargs hkey hnew =>
          obtain rfl := Except.ok.inj h
          cases d <;> rfl
      | function hfunction hread =>
          obtain ⟨body, -, h⟩ := Outcome.bind_eq_ok_iff.1 h
          obtain ⟨types, -, h⟩ := Outcome.bind_eq_ok_iff.1 h
          obtain rfl := Except.ok.inj h
          rw [Direction.guarded]
          split <;> rfl
      | instantiated hmem hkey hargs hnew hfunction =>
          obtain rfl := Except.ok.inj h
          cases d <;> rfl
      | unknown hnew hfunction =>
          obtain ⟨_, -, h⟩ := Outcome.bind_eq_ok_iff.1 h
          obtain rfl := Except.ok.inj h
          exact he

theorem source_ne_of_length {ident : String}
    (h : (Expr.name ident).source.length < x.source.length) :
    x.source ≠ ident := by
  rintro rfl
  exact Nat.lt_irrefl _ h

theorem lambda_source_ne {ident : String} {params : List Binder} {body : Expr}
    (h : ident.toList.head? ≠ some '\x7b') :
    (Expr.lambda params body).source ≠ ident := by
  rintro rfl
  refine h ?_
  rw [Expr.source, Expr.lambdaSource]
  split <;> simp [String.toList_append]

/-- A name that stays as it is when it is converted has a type whose conversion names nothing. -/
theorem spelled_of_source_eq {ident : String}
    (hT : Table.ofSession exported extra erase = .ok T)
    (s : Shape)
    (hident : ident.toList.head? ≠ some '\x7b')
    (h : T.convert d (.name ident) s = .ok x)
    (hsource : x.source = ident) :
    T.spelled d s = [] := by
  induction s using Shape.induction generalizing ident x with
  | step name package args nullable ih =>
      cases hc : T.conversion? ⟨name, package, args, nullable⟩ with
      | error o => simp [convert_eq, hc] at h
      | ok c =>
          rw [spelled_eq, hc]
          have hwhole := h
          rw [convert_eq, hc] at h
          cases lookup_ofSession hT hc with
          | array hkey =>
              obtain ⟨inner, hinner, h⟩ := Outcome.bind_eq_ok_iff.1 h
              obtain ⟨a, rest, rfl, hinner⟩ := exists_element_of_convertFirst hinner
              obtain rfl := Except.ok.inj h
              rw [Direction.array] at hsource
              split at hsource
              · next hit => exact ih a List.mem_cons_self (by decide) hinner hit
              · refine absurd hsource (source_ne_of_length ?_)
                exact Nat.lt_trans (length_lt_mapped _ _ _) (length_lt_send _ _ _)
          | list hkey =>
              obtain ⟨inner, hinner, h⟩ := Outcome.bind_eq_ok_iff.1 h
              obtain rfl := Except.ok.inj h
              exact absurd hsource (source_ne_of_length (d.length_lt_list _ _ _))
          | exception hkey hnew =>
              obtain rfl := Except.ok.inj h
              exact absurd hsource (source_ne_of_length (d.length_lt_exception _ _ _))
          | function hfunction hread =>
              obtain ⟨body, -, h⟩ := Outcome.bind_eq_ok_iff.1 h
              obtain ⟨types, -, h⟩ := Outcome.bind_eq_ok_iff.1 h
              obtain rfl := Except.ok.inj h
              cases nullable with
              | true =>
                  refine absurd hsource (source_ne_of_length ?_)
                  exact Nat.lt_trans (length_lt_member _ true "let") (length_lt_trailing _ _)
              | false => exact absurd hsource (lambda_source_ne hident)
          | _ => rfl

/-- The code for a collection spells what the code for its element spells. -/
theorem mem_spelled_element {a : Shape} {inner : Expr}
    (hT : Table.ofSession exported extra erase = .ok T)
    (hinner : T.convert d .it a = .ok inner)
    (hspelled : k ∈ inner.spelled ↔ k ∈ T.spelled d a)
    (hx : x = Direction.array e s.nullable inner ∨ x = d.list e s.nullable inner) :
    k ∈ x.spelled ↔ k ∈ e.spelled ∨ k ∈ T.spelled d a := by
  by_cases hit : inner.source = "it"
  · rw [spelled_of_source_eq hT a (by decide) hinner hit]
    rcases hx with rfl | rfl
    · simp [Direction.array, hit]
    · cases d <;> simp [Direction.list, hit]
  · rw [← hspelled]
    rcases hx with rfl | rfl
    · simp [Direction.array, hit]
    · cases d <;> simp [Direction.list, hit]

theorem mem_spelled_lambda_of_types {names : List String} {params types : List Shape} {body : Expr}
    (hlength : names.length = types.length)
    (htypes : List.Forall₂ (fun p type => T.parameterType d p = .ok type) params types) :
    k ∈ (Expr.lambda ((names.zip types).map typedBinder) body).spelled ↔
      (∃ p ∈ params, ∃ type ∈ T.writtenType d p, k ∈ type.spelled) ∨ k ∈ body.spelled := by
  have hbinders : ((names.zip types).map typedBinder).filterMap Binder.type = types := by
    rw [List.filterMap_map]
    have hsnd : Binder.type ∘ typedBinder = some ∘ Prod.snd := rfl
    rw [hsnd, List.filterMap_eq_map, List.map_snd_zip (Nat.le_of_eq hlength.symm)]
  rw [Expr.mem_spelled_lambda, hbinders, Outcome.exists_mem_iff_of_forall₂ htypes]
  intro p _ type htype
  rw [writtenType_of_parameterType htype]
  simp

/-- The code for a function spells what the table says, if that for its arguments does. -/
theorem mem_spelled_function
    (hT : Table.ofSession exported extra erase = .ok T)
    (hc : T.conversion? s = .ok (some .function))
    (hfunction : s.isFunction = true)
    (ih : ∀ a ∈ s.args, ∀ {d : Direction} {e x : Expr}, T.convert d e a = .ok x →
      (k ∈ x.spelled ↔ k ∈ e.spelled ∨ k ∈ T.spelled d a))
    (h : T.convert d e s = .ok x) :
    k ∈ x.spelled ↔ k ∈ e.spelled ∨ k ∈ T.spelledCall d s.args := by
  obtain ⟨params, result, hargs⟩ := Shape.exists_params_of_isFunction hfunction
  obtain ⟨args, body, types, hconverted, hbody, htypes, rfl⟩ := (convert_function hc hargs).1 h
  have hlength := Name.length_lambdaParameters params.length (Direction.callee e s.nullable).source
  have hargued := argued_of_convertArgs hlength hconverted
  have hlabels : ∀ a ∈ args, a.label? = none := by
    intro a ha
    obtain ⟨n, -, p, -, hconvert⟩ := hargued.arg a ha
    exact label?_of_convert hT rfl hconvert
  have harguments : (∃ a ∈ args, k ∈ a.spelled) ↔ ∃ p ∈ params, k ∈ T.spelled d.flip p := by
    have hmem : ∀ p ∈ params, ∀ {n : String} {a : Expr}, T.convert d.flip (.name n) p = .ok a →
        (k ∈ a.spelled ↔ k ∈ T.spelled d.flip p) := by
      intro p hp n a hconvert
      simpa using ih p (by simp [hargs, hp]) hconvert
    constructor
    · rintro ⟨a, ha, hk⟩
      obtain ⟨n, -, p, hp, hconvert⟩ := hargued.arg a ha
      exact ⟨p, hp, (hmem p hp hconvert).1 hk⟩
    · rintro ⟨p, hp, hk⟩
      obtain ⟨n, -, a, ha, hconvert⟩ := hargued.param p hp
      exact ⟨a, ha, (hmem p hp hconvert).2 hk⟩
  have hcallee : (s.nullable = true ∧ k ∈ e.spelled) ∨
      k ∈ (Direction.callee e s.nullable).spelled ↔ k ∈ e.spelled := by
    cases s.nullable with
    | false => simp [Direction.callee]
    | true => simp [Direction.callee]
  rw [Direction.mem_spelled_guarded, mem_spelled_lambda_of_types (hlength.trans htypes.length_eq)
    htypes, ih result (by simp [hargs]) hbody, Expr.mem_spelled_call hlabels, harguments, hargs,
    mem_spelledCall, ← hcallee]
  grind

/-- A conversion names what the converted expression names and what its type calls for. -/
theorem mem_spelled_convert
    (hT : Table.ofSession exported extra erase = .ok T)
    (s : Shape) {e : Expr}
    (h : T.convert d e s = .ok x) :
    k ∈ x.spelled ↔ k ∈ e.spelled ∨ k ∈ T.spelled d s := by
  induction s using Shape.induction generalizing d e x with
  | step name package args nullable ih =>
      cases hc : T.conversion? ⟨name, package, args, nullable⟩ with
      | error o => simp [convert_eq, hc] at h
      | ok c =>
          rw [spelled_eq, hc]
          have hwhole := h
          rw [convert_eq, hc] at h
          cases lookup_ofSession hT hc with
          | identity hkey =>
              obtain rfl := Except.ok.inj h
              simp
          | long hkey =>
              obtain rfl := Except.ok.inj h
              cases d <;> simp [Direction.long]
          | longArray hkey =>
              obtain rfl := Except.ok.inj h
              cases d <;> simp [Direction.longArray, Direction.long]
          | array hkey =>
              obtain ⟨inner, hinner, h⟩ := Outcome.bind_eq_ok_iff.1 h
              obtain ⟨a, rest, rfl, hinner⟩ := exists_element_of_convertFirst hinner
              exact mem_spelled_element hT hinner (by simpa using ih a List.mem_cons_self hinner)
                (.inl (Except.ok.inj h).symm)
          | list hkey =>
              obtain ⟨inner, hinner, h⟩ := Outcome.bind_eq_ok_iff.1 h
              obtain ⟨a, rest, rfl, hinner⟩ := exists_element_of_convertFirst hinner
              exact mem_spelled_element hT hinner (by simpa using ih a List.mem_cons_self hinner)
                (.inr (Except.ok.inj h).symm)
          | exception hkey hnew =>
              obtain rfl := Except.ok.inj h
              exact d.mem_spelled_exception e _ _
          | declared hmem hargs hkey hnew =>
              obtain rfl := Except.ok.inj h
              cases d <;> simp [Direction.wrapper]
          | function hfunction hread =>
              exact mem_spelled_function hT hc hfunction (fun a ha => ih a ha) hwhole
          | instantiated hmem hkey hargs hnew hfunction =>
              obtain rfl := Except.ok.inj h
              cases d <;> simp [Direction.wrapper]
          | unknown hnew hfunction =>
              obtain ⟨_, -, h⟩ := Outcome.bind_eq_ok_iff.1 h
              obtain rfl := Except.ok.inj h
              simp

end Session

end Table

end Mapping

end Facade
