import Facade.Proofs.Plan
import Facade.Proofs.Outcome

/-!
# The code of conversions

What the expressions look like that convert a value, case by case, as far as their meaning depends
on it.

**Results.**
* `convert_function`: a function is converted by a lambda that calls it with converted arguments.
* `isIdentity_of_source_eq_it`: the element of a collection is left as it is only if its plan does
  nothing.
* `Shows.exists_convert`: a conversion is written out whenever every number in the shape can be
  read.
-/

namespace Facade
namespace Mapping

open Code

namespace Table

/-- The arguments of a call, each converted from the parameter of the given name. -/
def convertArgs (t : Table) (d : Direction) : List String → List Shape → Except Fault (List Expr)
  | _, [] => .ok []
  | names, p :: ps => do
      let arg ← t.convert d (.name (names.headD "")) p
      let args ← t.convertArgs d names.tail ps
      .ok (arg :: args)

variable {t : Table} {d : Direction}

/-- A call converts its arguments back and its result forth. -/
theorem convertCall_concat {target : Expr} {result : Shape}
    (params : List Shape) (names : List String) (done : List Expr) :
    t.convertCall d target names done (params ++ [result]) =
      (t.convertArgs d.flip names params >>= fun args =>
        t.convert d (.call target (done ++ args)) result) := by
  induction params generalizing names done with
  | nil =>
      rw [List.nil_append, convertCall, convertArgs]
      simp [bind, Except.bind]
  | cons p params ih =>
      have hstep : t.convertCall d target names done (p :: (params ++ [result])) =
          (t.convert d.flip (.name (names.headD "")) p >>= fun arg =>
            t.convertCall d target names.tail (done ++ [arg]) (params ++ [result])) := by
        cases params with
        | nil => rw [List.nil_append, convertCall]
        | cons q params => rw [List.cons_append, convertCall]
      rw [List.cons_append, hstep, convertArgs]
      simp only [bind_assoc]
      refine congrArg _ (funext fun arg => ?_)
      rw [ih]
      simp [bind, Except.bind]

/-- The conversions of a table, one case for each kind of rule. -/
theorem convert_eq (t : Table) (d : Direction) (e : Expr) (s : Shape) :
    t.convert d e s =
      match t.conversion? s with
      | .error o => .error (.overlong o)
      | .ok none => (t.exported s).map fun _ => e
      | .ok (some .identity) => .ok e
      | .ok (some .long) => .ok (d.long e s.nullable)
      | .ok (some .longArray) => .ok (d.longArray e s.nullable)
      | .ok (some .array) => do
          .ok (Direction.array e s.nullable (← t.convertFirst d s.key s.args))
      | .ok (some .list) => do .ok (d.list e s.nullable (← t.convertFirst d s.key s.args))
      | .ok (some (.exception type)) => .ok (d.exception e s.nullable type)
      | .ok (some .function) => do
          let target := Direction.callee e s.nullable
          let names := Name.lambdaParameters (s.args.length - 1) target.source
          let body ← t.convertCall d target names [] s.args
          let types ← s.args.dropLast.mapM (t.parameterType d)
          let params := names.zipWith (fun n type => Binder.mk n (some type)) types
          .ok (Direction.guarded e s.nullable (.lambda params body))
      | .ok (some (.wrapper type)) => .ok (d.wrapper e s.nullable type)
      | .ok (some (.template _ importing exporting)) => .ok (d.template e importing exporting) := by
  obtain ⟨name, package, args, nullable⟩ := s
  unfold convert
  rfl

/-- A function is converted to a lambda that converts its parameters back and its result forth. -/
theorem convert_function {e x : Expr} {s result : Shape} {params : List Shape}
    (hc : t.conversion? s = .ok (some .function))
    (hargs : s.args = params ++ [result]) :
    t.convert d e s = .ok x ↔
      ∃ args body types,
        t.convertArgs d.flip
          (Name.lambdaParameters params.length (Direction.callee e s.nullable).source) params =
            .ok args ∧
        t.convert d (.call (Direction.callee e s.nullable) args) result = .ok body ∧
        List.Forall₂ (fun p type => t.parameterType d p = .ok type) params types ∧
        x = Direction.guarded e s.nullable
          (.lambda (((Name.lambdaParameters params.length
            (Direction.callee e s.nullable).source).zip types).map typedBinder) body) := by
  have hbinders : ∀ (names : List String) (types : List Shape),
      names.zipWith (fun n type => Binder.mk n (some type)) types =
        (names.zip types).map typedBinder := by
    intro names types
    rw [← List.map_uncurry_zip_eq_zipWith]
    rfl
  rw [convert_eq, hc, hargs]
  simp only [List.length_append, List.length_singleton, Nat.add_sub_cancel, List.dropLast_concat,
    convertCall_concat, List.nil_append, Outcome.bind_eq_ok_iff, Outcome.mapM_eq_ok_iff, hbinders,
    Except.ok.injEq]
  constructor
  · rintro ⟨body, ⟨args, hargs', hbody⟩, types, htypes, rfl⟩
    exact ⟨args, body, types, hargs', hbody, htypes, rfl⟩
  · rintro ⟨args, body, types, hargs', hbody, htypes, rfl⟩
    exact ⟨body, ⟨args, hargs', hbody⟩, types, htypes, rfl⟩

/-- The written types of the parameters are the types of the values that the lambda takes. -/
theorem parameterType_eq_ok_iff {param type : Shape} :
    t.parameterType d param = .ok type ↔
      (match d with
        | .importing => type = param
        | .exporting => t.exported param = .ok type) ∧
      Readable type := by
  cases d with
  | importing =>
      simp only [parameterType, Outcome.bind_eq_ok_iff, Outcome.mapError_eq_ok_iff,
        Except.ok.injEq, Readable, ← Shape.checkNumbers_eq_ok_iff]
      constructor
      · rintro ⟨_, rfl, ⟨⟩, hnumbers, rfl⟩
        exact ⟨rfl, hnumbers⟩
      · rintro ⟨rfl, hnumbers⟩
        exact ⟨_, rfl, (), hnumbers, rfl⟩
  | exporting =>
      simp only [parameterType, Outcome.bind_eq_ok_iff, Outcome.mapError_eq_ok_iff,
        Except.ok.injEq, Readable, ← Shape.checkNumbers_eq_ok_iff]
      constructor
      · rintro ⟨_, hexported, ⟨⟩, hnumbers, rfl⟩
        exact ⟨hexported, hnumbers⟩
      · rintro ⟨hexported, hnumbers⟩
        exact ⟨_, hexported, (), hnumbers, rfl⟩

/-- The elements of an array are converted one by one. -/
theorem convert_array {e x : Expr} {s a : Shape}
    (hc : t.conversion? s = .ok (some .array))
    (hargs : s.args = [a]) :
    t.convert d e s = .ok x ↔
      ∃ inner, t.convert d .it a = .ok inner ∧ Direction.array e s.nullable inner = x := by
  rw [convert_eq, hc, hargs]
  simp only [convertFirst, Outcome.bind_eq_ok_iff, Except.ok.injEq]

theorem convert_list {e x : Expr} {s a : Shape}
    (hc : t.conversion? s = .ok (some .list))
    (hargs : s.args = [a]) :
    t.convert d e s = .ok x ↔
      ∃ inner, t.convert d .it a = .ok inner ∧ d.list e s.nullable inner = x := by
  rw [convert_eq, hc, hargs]
  simp only [convertFirst, Outcome.bind_eq_ok_iff, Except.ok.injEq]

end Table

section Lengths

theorem length_lt_member (e : Expr) (safe : Bool) (m : String) :
    e.source.length < (Expr.member e safe m).source.length := by
  have hdot : 0 < (if safe then "?." else ".").length := by cases safe <;> decide
  simp only [Expr.source, String.length_append]
  omega

theorem length_lt_call (f : Expr) (args : List Expr) :
    f.source.length < (Expr.call f args).source.length := by
  have hopen : 0 < "(".length := by decide
  simp only [Expr.source, String.length_append]
  omega

theorem length_lt_trailing (f block : Expr) :
    f.source.length < (Expr.trailing f block).source.length := by
  have hblank : 0 < " ".length := by decide
  simp only [Expr.source, String.length_append]
  omega

theorem length_lt_cast (e : Expr) (k : Key) (nullable : Bool) :
    e.source.length < (Expr.cast e k nullable).source.length := by
  have has : 0 < " as ".length := by decide
  simp only [Expr.source, String.length_append]
  omega

/-- A call on an expression is longer than the expression. -/
theorem length_lt_send (e : Expr) (safe : Bool) (m : String) :
    e.source.length < (e.send safe m).source.length :=
  Nat.lt_trans (length_lt_member e safe m) (length_lt_call _ _)

theorem length_lt_mapped (e : Expr) (safe : Bool) (body : Expr) :
    e.source.length < (e.mapped safe body).source.length :=
  Nat.lt_trans (length_lt_member e safe "map") (length_lt_trailing _ _)

theorem two_lt_length_lambda (params : List Binder) (body : Expr) :
    2 < (Expr.lambda params body).source.length := by
  have hopen : 2 ≤ "\x7b ".length := by decide
  have hempty : 2 ≤ "\x7b ->".length := by decide
  have hline : 0 < "\n".length := by decide
  simp only [Expr.source, Expr.lambdaSource, String.length_append]
  split
  · omega
  · simp only [String.length_append]
    omega

/-- Whatever is longer than the implicit parameter is not the implicit parameter. -/
theorem source_ne_it {x : Expr}
    (h : Expr.it.source.length < x.source.length) :
    x.source ≠ "it" := by
  intro heq
  rw [heq] at h
  exact absurd h (by decide)

theorem source_send_ne_it {x : Expr} (safe : Bool) (m : String)
    (h : Expr.it.source.length ≤ x.source.length) :
    (x.send safe m).source ≠ "it" :=
  source_ne_it (Nat.lt_of_le_of_lt h (length_lt_send x safe m))

end Lengths

section Element

variable {S : Signature} {T : Table}

/-- If the code of a conversion is the implicit parameter, there is nothing to convert. -/
theorem Shows.isIdentity_of_source_eq_it {a a' : Shape}
    (h : Shows S T a a') :
    ∀ d x, T.convert d .it a = .ok x → x.source = "it" → (T.plan S a).isIdentity = true := by
  induction h with
  | keep hconvert hplan =>
      intro d x hx hsource
      rw [hplan]
      rfl
  | @long s hc hty =>
      intro d x hx hsource
      rw [Table.convert_eq, hc] at hx
      obtain rfl := Except.ok.inj hx
      cases d
      · exact absurd hsource (source_send_ne_it _ _ (Nat.le_refl _))
      · exact absurd hsource (source_send_ne_it _ _ (Nat.le_refl _))
  | longArray hc hty =>
      intro d x hx hsource
      rw [Table.convert_eq, hc] at hx
      obtain rfl := Except.ok.inj hx
      cases d
      · exact absurd hsource (source_send_ne_it _ _ (Nat.le_of_lt (length_lt_mapped _ _ _)))
      · exact absurd hsource (source_send_ne_it _ _ (Nat.le_of_lt (length_lt_mapped _ _ _)))
  | array hc hargs hty ha ih =>
      intro d x hx hsource
      obtain ⟨inner, hinner, rfl⟩ := (Table.convert_array hc hargs).1 hx
      rw [Direction.array] at hsource
      split at hsource
      · next hit =>
          rw [Table.plan_array hc hargs, Plan.isIdentity_mark]
          exact ih d inner hinner hit
      · exact absurd hsource (source_send_ne_it _ _ (Nat.le_of_lt (length_lt_mapped _ _ _)))
  | list hc hargs hty ha ih =>
      intro d x hx hsource
      obtain ⟨inner, hinner, rfl⟩ := (Table.convert_list hc hargs).1 hx
      cases d with
      | importing =>
          simp only [Direction.list] at hsource
          split at hsource
          · exact absurd hsource (source_send_ne_it _ _ (Nat.le_refl _))
          · exact absurd hsource (source_ne_it (length_lt_mapped _ _ _))
      | exporting =>
          simp only [Direction.list] at hsource
          split at hsource
          · exact absurd hsource (source_send_ne_it _ _ (Nat.le_refl _))
          · exact absurd hsource (source_send_ne_it _ _ (Nat.le_of_lt (length_lt_mapped _ _ _)))
  | exception hc hk hty =>
      intro d x hx hsource
      rw [Table.convert_eq, hc] at hx
      obtain rfl := Except.ok.inj hx
      cases d with
      | importing =>
          exact absurd hsource
            (source_ne_it (Nat.lt_trans (length_lt_member _ _ _) (length_lt_cast _ _ _)))
      | exporting =>
          simp only [Direction.exception] at hsource
          split at hsource
          · exact absurd hsource
              (source_ne_it (Nat.lt_trans (length_lt_member _ _ _) (length_lt_trailing _ _)))
          · exact absurd hsource (by decide)
  | wrapper hc hk hty hty' hread =>
      intro d x hx hsource
      rw [Table.convert_eq, hc] at hx
      obtain rfl := Except.ok.inj hx
      cases d
      · exact absurd hsource (source_send_ne_it _ _ (Nat.le_refl _))
      · exact absurd hsource (source_send_ne_it _ _ (Nat.le_refl _))
  | function hc hfunction hargs hparams hshow hresult ih ihr =>
      intro d x hx hsource
      obtain ⟨args, body, types, -, -, -, rfl⟩ := (Table.convert_function hc hargs).1 hx
      rw [Direction.guarded] at hsource
      split at hsource
      · exact absurd hsource
          (source_ne_it (Nat.lt_trans (length_lt_member _ _ _) (length_lt_trailing _ _)))
      · exact absurd hsource (source_ne_it (two_lt_length_lambda _ _))

end Element

section Success

variable {S : Signature} {T : Table}

theorem readable_of_args_nil {s : Shape}
    (hself : s.overlong? = none)
    (hargs : s.args = []) :
    Readable s := by
  refine (readable_iff s).2 ⟨hself, ?_⟩
  intro a ha
  rw [hargs] at ha
  exact absurd ha List.not_mem_nil

theorem readable_arrayOf {a : Shape} (nullable : Bool)
    (ha : Readable a) :
    Readable (.arrayOf a nullable) := by
  have hname : (Shape.arrayOf a nullable).name = "Array" := rfl
  have hdigits : Shape.functionDigits? "Array" = none := by decide
  have hself : (Shape.arrayOf a nullable).overlong? = none := by
    simp [Shape.overlong?, hname, hdigits]
  refine (readable_iff _).2 ⟨hself, ?_⟩
  intro b hb
  rwa [List.mem_singleton.1 hb]

/-- The type that is shown mentions no other numbers than the type. -/
theorem Shows.readable {s s' : Shape}
    (h : Shows S T s s')
    (hs : Readable s) :
    Readable s' := by
  induction h with
  | keep hconvert hplan => exact hs
  | @long s hc hty => exact readable_of_args_nil (by cases s.nullable <;> rfl) rfl
  | longArray hc hty => exact readable_arrayOf _ (readable_of_args_nil rfl rfl)
  | array hc hargs hty ha ih =>
      exact readable_arrayOf _ (ih (((readable_iff _).1 hs).2 _ (by simp [hargs])))
  | list hc hargs hty ha ih =>
      exact readable_arrayOf _ (ih (((readable_iff _).1 hs).2 _ (by simp [hargs])))
  | @exception s hc hk hty => exact readable_of_args_nil (by cases s.nullable <;> rfl) rfl
  | wrapper hc hk hty hty' hread => exact readable_of_args_nil hread rfl
  | @function s result result' params params' hc hfunction hargs hparams hshow hresult ih ihr =>
      obtain ⟨hself, hall⟩ := (readable_iff _).1 hs
      rw [hargs] at hall
      refine (readable_iff _).2 ⟨hself, fun a' ha' => ?_⟩
      rcases List.mem_append.1 ha' with ha' | ha'
      · obtain ⟨p, hp, hexported⟩ := Outcome.exists_left_of_forall₂ hparams ha'
        exact ih p hp a' hexported (hall p (by simp [hp]))
      · rw [List.mem_singleton.1 ha']
        exact ihr (hall result (by simp))

theorem Table.exists_convertArgs {d : Direction} {params : List Shape}
    (h : ∀ p ∈ params, ∀ e, ∃ x, T.convert d e p = .ok x) (names : List String) :
    ∃ args, T.convertArgs d names params = .ok args := by
  induction params generalizing names with
  | nil => exact ⟨[], rfl⟩
  | cons p params ih =>
      obtain ⟨arg, harg⟩ := h p List.mem_cons_self (.name (names.headD ""))
      obtain ⟨args, hargs⟩ := ih (fun q hq => h q (List.mem_cons_of_mem p hq)) names.tail
      refine ⟨arg :: args, ?_⟩
      rw [convertArgs]
      exact Outcome.bind_eq_ok_iff.2 ⟨arg, harg, Outcome.bind_eq_ok_iff.2 ⟨args, hargs, rfl⟩⟩

theorem Shows.exists_parameterTypes {params params' : List Shape} (d : Direction)
    (hparams : List.Forall₂ (fun p p' => T.exported p = .ok p') params params')
    (hshow : ∀ p ∈ params, ∀ p', T.exported p = .ok p' → Shows S T p p')
    (hread : ∀ p ∈ params, Readable p) :
    ∃ types, List.Forall₂ (fun p type => T.parameterType d p = .ok type) params types := by
  cases d with
  | importing =>
      refine ⟨params, List.forall₂_same.2 fun p hp => ?_⟩
      exact Table.parameterType_eq_ok_iff.2 ⟨rfl, hread p hp⟩
  | exporting =>
      refine ⟨params', Outcome.forall₂_imp_of_mem hparams fun p hp p' hexported => ?_⟩
      have hshows := hshow p hp p' hexported
      exact Table.parameterType_eq_ok_iff.2 ⟨hexported, hshows.readable (hread p hp)⟩

/-- Where all numbers can be read, there is code for every type that is shown. -/
theorem Shows.exists_convert {s s' : Shape}
    (h : Shows S T s s')
    (hs : Readable s) :
    ∀ d e, ∃ x, T.convert d e s = .ok x := by
  induction h with
  | keep hconvert hplan => exact fun d e => ⟨e, hconvert d e⟩
  | long hc hty => exact fun d e => ⟨_, by rw [Table.convert_eq, hc]⟩
  | longArray hc hty => exact fun d e => ⟨_, by rw [Table.convert_eq, hc]⟩
  | array hc hargs hty ha ih =>
      intro d e
      obtain ⟨inner, hinner⟩ := ih (((readable_iff _).1 hs).2 _ (by simp [hargs])) d .it
      exact ⟨_, (Table.convert_array hc hargs).2 ⟨inner, hinner, rfl⟩⟩
  | list hc hargs hty ha ih =>
      intro d e
      obtain ⟨inner, hinner⟩ := ih (((readable_iff _).1 hs).2 _ (by simp [hargs])) d .it
      exact ⟨_, (Table.convert_list hc hargs).2 ⟨inner, hinner, rfl⟩⟩
  | exception hc hk hty => exact fun d e => ⟨_, by rw [Table.convert_eq, hc]⟩
  | wrapper hc hk hty hty' hread => exact fun d e => ⟨_, by rw [Table.convert_eq, hc]⟩
  | @function s result result' params params' hc hfunction hargs hparams hshow hresult ih ihr =>
      intro d e
      obtain ⟨-, hall⟩ := (readable_iff _).1 hs
      rw [hargs] at hall
      have hread : ∀ p ∈ params, Readable p := fun p hp => hall p (by simp [hp])
      have hconvert : ∀ p ∈ params, ∀ e, ∃ x, T.convert d.flip e p = .ok x := by
        intro p hp e
        obtain ⟨p', -, hp'⟩ := Outcome.exists_left_of_forall₂ hparams.flip hp
        exact ih p hp p' hp' (hread p hp) d.flip e
      obtain ⟨args, hargs'⟩ := Table.exists_convertArgs hconvert
        (Name.lambdaParameters params.length (Direction.callee e s.nullable).source)
      obtain ⟨body, hbody⟩ := ihr (hall result (by simp)) d
        (.call (Direction.callee e s.nullable) args)
      obtain ⟨types, htypes⟩ := Shows.exists_parameterTypes d hparams hshow hread
      exact ⟨_, (Table.convert_function hc hargs).2 ⟨args, body, types, hargs', hbody, htypes, rfl⟩⟩

end Success

section Unreadable

/-- A type with the name of a function type whose number has `count` digits. -/
def longNumber (count : Nat) : Shape :=
  .kotlin ("Function" ++ String.ofList (List.replicate count '1'))

/-- The type of a function on integers, with an argument written after the integers. -/
def functionOn (argument : Shape) : Shape :=
  .kotlin "Function1" [.kotlin "Int" [argument], .unit]

/-- The table of a session that exports nothing. -/
def builtinTable : Table :=
  ⟨sessionRules [] [] false⟩

theorem ofSession_builtinTable : Table.ofSession [] [] false = .ok builtinTable :=
  ofSession_eq_ok (by decide)

/-- A number with too many digits cannot be read. -/
theorem overlong?_longNumber {count : Nat}
    (h : Text.maxDigits < count) :
    (longNumber count).overlong? = some ⟨count⟩ := by
  have hpositive : 0 < count := Nat.lt_of_le_of_lt (Nat.zero_le _) h
  have hdigit : Text.isDecimal '1' = true := by decide
  have hline : Shape.dropLineEnd (List.replicate count '1') = List.replicate count '1' := by
    obtain ⟨n, rfl⟩ : ∃ n, count = n + 1 := ⟨count - 1, by omega⟩
    rw [Shape.dropLineEnd, List.reverse_replicate, List.replicate_succ]
    rfl
  have hdigits : Shape.functionDigits? (longNumber count).name =
      some (List.replicate count '1') := by
    have hname : (longNumber count).name.toList =
        "Function".toList ++ List.replicate count '1' := by
      simp [longNumber, Shape.kotlin]
    rw [Shape.functionDigits?, hname, Text.afterChars?_append, Option.map_some, hline,
      Option.filter_some]
    simp [hdigit, Nat.ne_of_gt hpositive]
  rw [Shape.overlong?, if_pos (by rfl), hdigits, Option.filter_some]
  simp [h]

theorem checkFunction_unary (param result : Shape) :
    (Shape.kotlin "Function1" [param, result]).checkFunction = .ok true := by
  have hdigits : Shape.functionDigits? "Function1" = some ['1'] := by decide
  have harity : Shape.functionArity? "Function1" = some 1 := by decide
  have hread : (Shape.kotlin "Function1" [param, result]).overlong? = none := by
    simp [Shape.kotlin, Shape.overlong?, hdigits, Text.maxDigits]
  have hfunction : (Shape.kotlin "Function1" [param, result]).isFunction = true := by
    simp [Shape.kotlin, Shape.isFunction, harity]
  exact Shape.checkFunction_eq_ok_iff.2 ⟨hread, hfunction⟩

theorem conversion?_functionOn (argument : Shape) :
    builtinTable.conversion? (functionOn argument) = .ok (some .function) := by
  have hnone : keyConversion? [] [] false (functionOn argument).key = none := by rfl
  rw [conversion?_ofSession ofSession_builtinTable, hnone, functionOn, checkFunction_unary]
  rfl

theorem exported_builtinTable_of_identity {s : Shape}
    (h : s.key ∈ identityTypes.map Shape.key) :
    builtinTable.exported s = .ok s := by
  obtain ⟨name, package, args, nullable⟩ := s
  have hkey : keyConversion? [] [] false (Shape.key ⟨name, package, args, nullable⟩) =
      some .identity := by
    rw [keyConversion?, if_pos h]
  rw [Table.exported, conversion?_ofSession ofSession_builtinTable, hkey]

theorem exported_int (args : List Shape) :
    builtinTable.exported (.kotlin "Int" args) = .ok (.kotlin "Int" args) := by
  have hmem : Shape.int.key ∈ identityTypes.map Shape.key := by decide
  exact exported_builtinTable_of_identity hmem

theorem exported_functionOn (argument : Shape) :
    builtinTable.exported (functionOn argument) = .ok (functionOn argument) := by
  have hint := exported_int [argument]
  have hunit := exported_builtinTable_of_identity (s := .unit) (by decide)
  have hc := conversion?_functionOn argument
  simp only [functionOn, Shape.kotlin] at hc hint ⊢
  rw [Table.exported, hc]
  simp only [Table.exportedAll, hint, hunit]
  rfl

/-- There is no code for a function whose parameter has a number that cannot be read. -/
theorem convert_functionOn_longNumber {count : Nat}
    (h : Text.maxDigits < count) (d : Direction) (e x : Expr) :
    builtinTable.convert d e (functionOn (longNumber count)) ≠ .ok x := by
  intro hx
  have hargs : (functionOn (longNumber count)).args =
    [.kotlin "Int" [longNumber count]] ++ [.unit] := rfl
  obtain ⟨_, _, types, -, -, htypes, -⟩ :=
    (Table.convert_function (conversion?_functionOn _) hargs).1 hx
  obtain ⟨type, -, htype⟩ := Outcome.exists_left_of_forall₂ htypes.flip List.mem_cons_self
  obtain ⟨hwritten, hread⟩ := Table.parameterType_eq_ok_iff.1 htype
  obtain rfl : type = .kotlin "Int" [longNumber count] := by
    cases d with
    | importing => exact hwritten
    | exporting => exact (Except.ok.inj ((exported_int _).symm.trans hwritten)).symm
  have hnone := ((readable_iff _).1 hread).2 (longNumber count) List.mem_cons_self
  rw [readable_iff, overlong?_longNumber h] at hnone
  exact Option.some_ne_none _ hnone.1

end Unreadable

end Mapping
end Facade
