import Facade.Proofs.Conversion
import Facade.Proofs.ConversionCode

/-!
# Meaning of conversion code

The code of a conversion is compared with the conversion of values that the plan of the shape
describes.  Elements are reached through the implicit parameter of a block, functions through a
lambda whose parameters must not capture anything that the called expression mentions.

**Input.**  The table of a session, a well-formed shape and an expression that denotes a value.

**Results.**
* `denotes_lambda`: a lambda that calls a function with converted arguments denotes the converted
  function.
* `Shows.convert_denotes`: the code of a conversion denotes the converted value, in every
  environment.
-/

namespace Facade
namespace Mapping

open Code

variable {S : Signature} {R : Runtime S} {ρ : Env (Typed R.Object)} {e : Expr} {d : Direction}

theorem denotes_long {b : Bool} {v : Value R.Object ((Plan.long.mark b).type d)}
    (hpost : e.isPostfix = true)
    (he : Denotes R ρ e ((Plan.long.mark b).type d) v) :
    Denotes R ρ (d.long e b) ((Plan.long.mark b).type d.flip)
      ((Plan.long.mark b).convert R d v) := by
  cases d <;> cases b
  · exact .send hpost he .toLong rfl
  · exact .send hpost he .toLong (by cases v <;> rfl)
  · exact .send hpost he .toDouble rfl
  · exact .send hpost he .toDouble (by cases v <;> rfl)

/-- The code for an array maps the code for an element, unless there is nothing to convert. -/
theorem denotes_array {b : Bool} {p : Plan S} {inner : Expr}
    {v : Value R.Object (((Plan.array p).mark b).type d)}
    (hpost : e.isPostfix = true)
    (he : Denotes R ρ e (((Plan.array p).mark b).type d) v)
    (hinner : ∀ x : Value R.Object (p.type d),
      Denotes R (ρ.push "it" ⟨p.type d, x⟩) inner (p.type d.flip) (p.convert R d x))
    (hidentity : inner.source = "it" → p.isIdentity = true) :
    Denotes R ρ (Direction.array e b inner) (((Plan.array p).mark b).type d.flip)
      (((Plan.array p).mark b).convert R d v) := by
  rw [Direction.array]
  split
  · next hit =>
      have hid : ((Plan.array p).mark b).isIdentity = true := by
        rw [Plan.isIdentity_mark]
        exact hidentity hit
      exact he.of_typed_eq (Plan.convert_of_isIdentity hid v)
  · cases d <;> cases b
    · exact .send rfl (.map rfl hpost he .array hinner rfl) .toTypedArray rfl
    · exact .send rfl (.map rfl hpost he .array hinner rfl) .toTypedArray (by cases v <;> rfl)
    · exact .send rfl (.map rfl hpost he .array hinner rfl) .toTypedArray rfl
    · exact .send rfl (.map rfl hpost he .array hinner rfl) .toTypedArray (by cases v <;> rfl)

theorem denotes_longArray {b : Bool} {v : Value R.Object ((Plan.longArray.mark b).type d)}
    (hpost : e.isPostfix = true)
    (he : Denotes R ρ e ((Plan.longArray.mark b).type d) v) :
    Denotes R ρ (d.longArray e b) ((Plan.longArray.mark b).type d.flip)
      ((Plan.longArray.mark b).convert R d v) := by
  cases d with
  | importing =>
      have hinner : ∀ x : Value R.Object (.object .double),
          Denotes R (ρ.push "it" ⟨_, x⟩) (Expr.it.send false "toLong") (.object .long)
            (R.toLong x) :=
        fun x => .send rfl (.name (Env.push_self ρ "it" _)) .toLong rfl
      cases b
      · exact .send rfl (.map rfl hpost he .array hinner rfl) .toLongArray rfl
      · exact .send rfl (.map rfl hpost he .array hinner rfl) .toLongArray (by cases v <;> rfl)
  | exporting =>
      have hinner : ∀ x : Value R.Object (.object .long),
          Denotes R (ρ.push "it" ⟨_, x⟩) (Expr.it.send false "toDouble") (.object .double)
            (R.toDouble x) :=
        fun x => .send rfl (.name (Env.push_self ρ "it" _)) .toDouble rfl
      cases b
      · exact .send rfl (.map rfl hpost he .longArray hinner rfl) .toTypedArray rfl
      · exact .send rfl (.map rfl hpost he .longArray hinner rfl) .toTypedArray
          (by cases v <;> rfl)

theorem denotes_list {b : Bool} {p : Plan S} {inner : Expr}
    {v : Value R.Object (((Plan.list p).mark b).type d)}
    (hpost : e.isPostfix = true)
    (he : Denotes R ρ e (((Plan.list p).mark b).type d) v)
    (hinner : ∀ x : Value R.Object (p.type d),
      Denotes R (ρ.push "it" ⟨p.type d, x⟩) inner (p.type d.flip) (p.convert R d x))
    (hidentity : inner.source = "it" → p.isIdentity = true) :
    Denotes R ρ (d.list e b inner) (((Plan.list p).mark b).type d.flip)
      (((Plan.list p).mark b).convert R d v) := by
  cases d with
  | importing =>
      rw [Direction.list]
      split
      · next hit =>
          have hid := hidentity hit
          have htype := (Plan.native_eq_shown hid).symm
          have hkeep := Plan.toNative_of_isIdentity (R := R) p hid
          have hlist := Plan.typed_list htype hkeep
          cases b
          · have hsame : Denotes R ρ (e.send false "toList") (.list p.shown) v :=
              .send hpost he .toList rfl
            exact hsame.of_typed_eq (hlist v)
          · have hsame : Denotes R ρ (e.send true "toList") (.nullable (.list p.shown)) v :=
              .send hpost he .toList (by cases v <;> rfl)
            exact hsame.of_typed_eq (Plan.typed_nullable (congrArg Ty.list htype) hlist v)
      · cases b
        · exact .map rfl hpost he .array hinner rfl
        · exact .map rfl hpost he .array hinner (by cases v <;> rfl)
  | exporting =>
      rw [Direction.list]
      split
      · next hit =>
          have hid := hidentity hit
          have htype := Plan.native_eq_shown hid
          have hkeep := Plan.toShown_of_isIdentity (R := R) p hid
          have harray := Plan.typed_array htype hkeep
          cases b
          · have hsame : Denotes R ρ (e.send false "toTypedArray") (.array p.native) v :=
              .send hpost he .toTypedArray rfl
            exact hsame.of_typed_eq (harray v)
          · have hsame : Denotes R ρ (e.send true "toTypedArray") (.nullable (.array p.native)) v :=
              .send hpost he .toTypedArray (by cases v <;> rfl)
            exact hsame.of_typed_eq (Plan.typed_nullable (congrArg Ty.array htype) harray v)
      · cases b
        · exact .send rfl (.map rfl hpost he .list hinner rfl) .toTypedArray rfl
        · exact .send rfl (.map rfl hpost he .list hinner rfl) .toTypedArray (by cases v <;> rfl)

/-- The code for an exception wraps it, or takes its cause and casts it. -/
theorem denotes_exception {b : Bool} {k : Key} {hk : k ∈ S.exceptions}
    {v : Value R.Object ((Plan.exception k b hk).type d)}
    (hpost : e.isPostfix = true)
    (he : Denotes R ρ e ((Plan.exception k b hk).type d) v) :
    Denotes R ρ (d.exception e b k) ((Plan.exception k b hk).type d.flip)
      ((Plan.exception k b hk).convert R d v) := by
  cases d <;> cases b
  · exact .cast rfl hk (.member hpost he .cause rfl) rfl
  · exact .cast rfl hk (.member hpost he .cause rfl) (by cases v <;> rfl)
  · exact .error hk he rfl
  · refine .letIt rfl hpost he (fun x => .error hk (.name (Env.push_self ρ "it" _)) rfl) ?_
    cases v <;> rfl

/-- The code for a wrapped type calls the conversion function of the wrapper. -/
theorem denotes_wrapper {b : Bool} {native : Shape} {k : Key} {hk : (native, k) ∈ S.wrappers}
    {v : Value R.Object (((Plan.wrapper native k hk).mark b).type d)}
    (hpost : e.isPostfix = true)
    (he : Denotes R ρ e (((Plan.wrapper native k hk).mark b).type d) v) :
    Denotes R ρ (d.wrapper e b k) (((Plan.wrapper native k hk).mark b).type d.flip)
      (((Plan.wrapper native k hk).mark b).convert R d v) := by
  cases d <;> cases b
  · exact .send hpost he (.importer hk) rfl
  · exact .send hpost he (.importer hk) (by cases v <;> rfl)
  · exact .send hpost he (.exporter hk) rfl
  · exact .send hpost he (.exporter hk) (by cases v <;> rfl)

section Function

variable {ps : List (Plan S)} {r : Plan S} {names : List String} {types : List Shape}
variable {args : List Expr} {target body : Expr}

/-- A lambda that calls a function with converted arguments and converts the result. -/
theorem denotes_lambda {g : Value R.Object ((Plan.function ps r).type d)}
    (hpost : target.isPostfix = true)
    (htarget : Denotes R ρ target ((Plan.function ps r).type d) g)
    (hnames : names = Name.lambdaParameters ps.length target.source)
    (htypes : types.map Shape.ty = Plan.typeAll d.flip ps)
    (hargs : ∀ (σ : Env (Typed R.Object)) (vs : Values R.Object (Plan.typeAll d.flip ps)),
      (∀ entry ∈ names.zip (vs.typed _), σ entry.1 = some entry.2) →
        DenoteAll R σ args (Plan.typeAll d.flip.flip ps) (Plan.convertAll R d.flip ps vs))
    (hbody : ∀ (σ : Env (Typed R.Object)) (w : Value R.Object (r.type d)),
      Denotes R σ (.call target args) (r.type d) w →
        Denotes R σ body (r.type d.flip) (r.convert R d w)) :
    Denotes R ρ (.lambda ((names.zip types).map typedBinder) body)
      ((Plan.function ps r).type d.flip) ((Plan.function ps r).convert R d g) := by
  have hlength : names.length = types.length := by
    have hcount := congrArg List.length htypes
    rw [List.length_map, Plan.typeAll_eq_map, List.length_map] at hcount
    rw [hnames, Name.length_lambdaParameters, hcount]
  have hfst : (names.zip types).map Prod.fst = names :=
    List.map_fst_zip (Nat.le_of_eq hlength)
  have hsnd : (names.zip types).map Prod.snd = types :=
    List.map_snd_zip (Nat.le_of_eq hlength.symm)
  have hts : Plan.typeAll d.flip ps = (names.zip types).map fun b => b.2.ty := by
    rw [← htypes]
    conv_lhs => rw [← hsnd, List.map_map]
    rfl
  have hkeys : ∀ vs : Values R.Object (Plan.typeAll d.flip ps),
      (names.zip (vs.typed _)).map Prod.fst = names := by
    intro vs
    have htyped := congrArg List.length (Values.map_fst_typed _ vs)
    rw [List.length_map] at htyped
    have hcount : (Plan.typeAll d.flip ps).length = names.length := by
      rw [← htypes, List.length_map, hlength]
    exact List.map_fst_zip (Nat.le_of_eq (htyped.trans hcount).symm)
  -- inside the lambda the called expression means what it means outside
  have hinside : ∀ vs : Values R.Object (Plan.typeAll d.flip ps),
      Denotes R (ρ.pushAll (names.zip (vs.typed _))) target ((Plan.function ps r).type d) g := by
    intro vs
    refine htarget.agree _ fun x hx => Env.pushAll_of_not_mem ?_
    rw [hkeys vs]
    intro hmem
    rw [hnames] at hmem
    exact Expr.not_mem_names_of_mem_lambdaParameters hmem hx
  have hbound : ∀ (vs : Values R.Object (Plan.typeAll d.flip ps)),
      ∀ entry ∈ names.zip (vs.typed _),
        ρ.pushAll (names.zip (vs.typed _)) entry.1 = some entry.2 := by
    intro vs entry hentry
    refine Env.pushAll_of_mem ?_ hentry
    rw [hkeys vs, hnames]
    exact Name.nodup_lambdaParameters _ _
  cases d with
  | importing =>
      refine .lambda rfl hts fun vs => ?_
      rw [hfst]
      exact hbody _ _ (.call hpost (hinside vs) (hargs _ vs (hbound vs)) rfl)
  | exporting =>
      refine .lambda rfl hts fun vs => ?_
      rw [hfst]
      exact hbody _ _ (.call hpost (hinside vs) (hargs _ vs (hbound vs)) rfl)

/-- The code for a function is a lambda that converts the arguments back, calls it and converts the
result. -/
theorem denotes_function {b : Bool} {v : Value R.Object (((Plan.function ps r).mark b).type d)}
    (hpost : e.isPostfix = true)
    (he : Denotes R ρ e (((Plan.function ps r).mark b).type d) v)
    (hnames : names = Name.lambdaParameters ps.length (Direction.callee e b).source)
    (htypes : types.map Shape.ty = Plan.typeAll d.flip ps)
    (hargs : ∀ (σ : Env (Typed R.Object)) (vs : Values R.Object (Plan.typeAll d.flip ps)),
      (∀ entry ∈ names.zip (vs.typed _), σ entry.1 = some entry.2) →
        DenoteAll R σ args (Plan.typeAll d.flip.flip ps) (Plan.convertAll R d.flip ps vs))
    (hbody : ∀ (σ : Env (Typed R.Object)) (w : Value R.Object (r.type d)),
      Denotes R σ (.call (Direction.callee e b) args) (r.type d) w →
        Denotes R σ body (r.type d.flip) (r.convert R d w)) :
    Denotes R ρ (Direction.guarded e b (.lambda ((names.zip types).map typedBinder) body))
      (((Plan.function ps r).mark b).type d.flip)
      (((Plan.function ps r).mark b).convert R d v) := by
  cases b with
  | false => exact denotes_lambda hpost he hnames htypes hargs hbody
  | true =>
      have hchecked : ∀ g : Value R.Object ((Plan.function ps r).type d),
          Denotes R (ρ.push Direction.checkedFunction ⟨_, g⟩)
            (.lambda ((names.zip types).map typedBinder) body)
            ((Plan.function ps r).type d.flip) ((Plan.function ps r).convert R d g) :=
        fun g => denotes_lambda rfl (.name (Env.push_self ρ _ _)) hnames htypes hargs hbody
      cases d with
      | importing => exact .letNamed rfl hpost he hchecked (by cases v <;> rfl)
      | exporting => exact .letNamed rfl hpost he hchecked (by cases v <;> rfl)

end Function

section Main

variable {T : Table}

/-- The arguments of a call denote the converted values of the parameters. -/
theorem Table.convertArgs_denotes {params : List Shape} {names : List String} {args : List Expr}
    (hlength : names.length = params.length)
    (hargs : T.convertArgs d names params = .ok args)
    (hconvert : ∀ p ∈ params, ∀ (e x : Expr), e.isPostfix = true → T.convert d e p = .ok x →
      ∀ (σ : Env (Typed R.Object)) (v : Value R.Object ((T.plan S p).type d)),
        Denotes R σ e ((T.plan S p).type d) v →
          Denotes R σ x ((T.plan S p).type d.flip) ((T.plan S p).convert R d v))
    (σ : Env (Typed R.Object)) (vs : Values R.Object (Plan.typeAll d (params.map (T.plan S))))
    (hbound : ∀ entry ∈ names.zip (vs.typed _), σ entry.1 = some entry.2) :
    DenoteAll R σ args (Plan.typeAll d.flip (params.map (T.plan S)))
      (Plan.convertAll R d (params.map (T.plan S)) vs) := by
  induction params generalizing names args with
  | nil =>
      rw [Table.convertArgs] at hargs
      obtain rfl := Except.ok.inj hargs
      cases d with
      | importing => exact .nil
      | exporting => exact .nil
  | cons p params ih =>
      cases names with
      | nil => simp at hlength
      | cons n names =>
          obtain ⟨arg, harg, hargs⟩ := Outcome.bind_eq_ok_iff.1 hargs
          obtain ⟨rest, hrest, hargs⟩ := Outcome.bind_eq_ok_iff.1 hargs
          obtain rfl := Except.ok.inj hargs
          have hlength' : names.length = params.length := Nat.succ.inj hlength
          have hconvert' := fun q hq => hconvert q (List.mem_cons_of_mem p hq)
          cases d with
          | importing =>
              have hn : σ n = some ⟨_, vs.1⟩ := hbound (n, ⟨_, vs.1⟩) List.mem_cons_self
              have hothers := ih hlength' hrest hconvert' vs.2
                fun entry hentry => hbound entry (List.mem_cons_of_mem _ hentry)
              exact .cons (hconvert p List.mem_cons_self _ _ rfl harg σ _ (.name hn)) hothers
          | exporting =>
              have hn : σ n = some ⟨_, vs.1⟩ := hbound (n, ⟨_, vs.1⟩) List.mem_cons_self
              have hothers := ih hlength' hrest hconvert' vs.2
                fun entry hentry => hbound entry (List.mem_cons_of_mem _ hentry)
              exact .cons (hconvert p List.mem_cons_self _ _ rfl harg σ _ (.name hn)) hothers

/-- The type written at a parameter is the one on the other side. -/
theorem Shows.ty_parameterType {p p' type : Shape}
    (h : Shows S T p p')
    (hp : T.exported p = .ok p')
    (htype : T.parameterType d p = .ok type) :
    type.ty = (T.plan S p).type d.flip := by
  have hwritten := (Table.parameterType_eq_ok_iff.1 htype).1
  cases d with
  | importing =>
      obtain rfl : type = p := hwritten
      exact h.plan_types.1.symm
  | exporting =>
      obtain rfl : p' = type := Except.ok.inj (hp.symm.trans hwritten)
      exact h.plan_types.2.symm

theorem Table.map_ty_eq_typeAll {params types : List Shape}
    (htypes : List.Forall₂ (fun p type => T.parameterType d p = .ok type) params types)
    (hty : ∀ p ∈ params, ∀ type, T.parameterType d p = .ok type →
      type.ty = (T.plan S p).type d.flip) :
    types.map Shape.ty = Plan.typeAll d.flip (params.map (T.plan S)) := by
  rw [Plan.typeAll_eq_map, List.map_map]
  induction htypes with
  | nil => rfl
  | cons htype hrest ih =>
      rw [List.map_cons, List.map_cons, hty _ List.mem_cons_self _ htype,
        ih fun p hp => hty p (List.mem_cons_of_mem _ hp)]
      rfl

/-- The code of a conversion denotes the converted value, by induction over the types that are
shown. -/
theorem Shows.convert_denotes {s s' : Shape}
    (h : Shows S T s s') :
    ∀ (d : Direction) (e x : Expr), e.isPostfix = true → T.convert d e s = .ok x →
      ∀ (ρ : Env (Typed R.Object)) (v : Value R.Object ((T.plan S s).type d)),
        Denotes R ρ e ((T.plan S s).type d) v →
          Denotes R ρ x ((T.plan S s).type d.flip) ((T.plan S s).convert R d v) := by
  induction h with
  | keep hconvert hplan =>
      intro d e x hpost hx ρ
      obtain rfl := Except.ok.inj ((hconvert d e).symm.trans hx)
      rw [hplan]
      intro v he
      exact he.of_typed_eq (Plan.convert_of_isIdentity (p := .keep _) rfl v)
  | long hc hty =>
      intro d e x hpost hx ρ
      rw [Table.convert_eq, hc] at hx
      obtain rfl := Except.ok.inj hx
      rw [Table.plan_long hc]
      exact fun v he => denotes_long hpost he
  | longArray hc hty =>
      intro d e x hpost hx ρ
      rw [Table.convert_eq, hc] at hx
      obtain rfl := Except.ok.inj hx
      rw [Table.plan_longArray hc]
      exact fun v he => denotes_longArray hpost he
  | array hc hargs hty ha ih =>
      intro d e x hpost hx ρ
      obtain ⟨inner, hinner, rfl⟩ := (Table.convert_array hc hargs).1 hx
      rw [Table.plan_array hc hargs]
      intro v he
      exact denotes_array hpost he
        (fun y => ih d .it inner rfl hinner _ y (.name (Env.push_self ρ "it" _)))
        (ha.isIdentity_of_source_eq_it d inner hinner)
  | list hc hargs hty ha ih =>
      intro d e x hpost hx ρ
      obtain ⟨inner, hinner, rfl⟩ := (Table.convert_list hc hargs).1 hx
      rw [Table.plan_list hc hargs]
      intro v he
      exact denotes_list hpost he
        (fun y => ih d .it inner rfl hinner _ y (.name (Env.push_self ρ "it" _)))
        (ha.isIdentity_of_source_eq_it d inner hinner)
  | exception hc hk hty =>
      intro d e x hpost hx ρ
      rw [Table.convert_eq, hc] at hx
      obtain rfl := Except.ok.inj hx
      rw [Table.plan_exception hc hk]
      exact fun v he => denotes_exception hpost he
  | wrapper hc hk hty hty' hread =>
      intro d e x hpost hx ρ
      rw [Table.convert_eq, hc] at hx
      obtain rfl := Except.ok.inj hx
      rw [Table.plan_wrapper hc hk]
      exact fun v he => denotes_wrapper hpost he
  | @function s result result' params params' hc hfunction hargs hparams hshow hresult ih ihr =>
      intro d e x hpost hx ρ
      obtain ⟨args, body, types, hargs', hbody, htypes, rfl⟩ :=
        (Table.convert_function hc hargs).1 hx
      rw [Table.plan_function hc hargs]
      intro v he
      have hwritten : types.map Shape.ty = Plan.typeAll d.flip (params.map (T.plan S)) := by
        refine Table.map_ty_eq_typeAll htypes fun p hp type htype => ?_
        obtain ⟨p', -, hp'⟩ := Outcome.exists_left_of_forall₂ hparams.flip hp
        exact (hshow p hp p' hp').ty_parameterType hp' htype
      have hconverted := Table.convertArgs_denotes (S := S) (R := R)
        (Name.length_lambdaParameters _ _) hargs' fun p hp e x hpost hx σ v he => by
          obtain ⟨p', -, hp'⟩ := Outcome.exists_left_of_forall₂ hparams.flip hp
          exact ih p hp p' hp' d.flip e x hpost hx σ v he
      exact denotes_function hpost he (by rw [List.length_map]) hwritten hconverted
        (ihr d _ body rfl hbody)

end Main

/-- The expression denotes the value, and nothing else where members are unambiguous. -/
def Means (R : Runtime S) (ρ : Env (Typed R.Object)) (x : Expr) (t : Ty)
    (v : Value R.Object t) : Prop :=
  Denotes R ρ x t v ∧
    ((∀ s, Nonempty (R.Object s)) → R.Unambiguous → ∀ t' v', Denotes R ρ x t' v' →
      (⟨t, v⟩ : Typed R.Object) = ⟨t', v'⟩)

theorem means_of_denotes {x : Expr} {t : Ty} {v : Value R.Object t}
    (h : Denotes R ρ x t v) :
    Means R ρ x t v :=
  ⟨h, fun hO hR => h.unique hO hR⟩

section Session

variable {exported : List (Shape × String)} {extra : List Shape} {erase : Bool} {T : Table}
variable {s s' : Shape}

/-- Conversion code means the conversion of values: the plan of a shape goes between the types of
the shape and of the shape it is shown as, the code of both conversions is there whenever every
number in the shape can be read, and it denotes the converted value in every environment; importing
undoes exporting if the leaves do. -/
theorem conversion_code_means_conversion
    (hT : Table.ofSession exported extra erase = .ok T)
    (hs : WellFormed exported extra s)
    (hshown : T.exported s = .ok s')
    (hpost : e.isPostfix = true)
    (members : String → Ty → Ty → Prop) :
    let S := sessionSignature exported extra erase members
    let p := T.plan S s
    (p.native = s.ty ∧ p.shown = s'.ty) ∧
    (Readable s → (∃ x, T.exportExpr e s = .ok x) ∧ ∃ x, T.importExpr e s = .ok x) ∧
    (∀ x, T.exportExpr e s = .ok x →
      ∀ (R : Runtime S) ρ v, Denotes R ρ e p.native v → Means R ρ x p.shown (p.toShown R v)) ∧
    (∀ x, T.importExpr e s = .ok x →
      ∀ (R : Runtime S) ρ v, Denotes R ρ e p.shown v → Means R ρ x p.native (p.toNative R v)) ∧
    ∀ R : Runtime S, Lossless R →
      (∀ v, p.toNative R (p.toShown R v) = v) ∧
      ∀ x y z ρ v, T.exportExpr e s = .ok x → T.importExpr (.name y) s = .ok z →
        Denotes R ρ e p.native v →
          ∃ w, Denotes R ρ x p.shown w ∧ Denotes R (ρ.push y ⟨p.shown, w⟩) z p.native v := by
  intro S p
  have h : Shows S T s s' := shows_of_exported members hT s s' hs hshown
  refine ⟨h.plan_types, ?_, ?_, ?_, ?_⟩
  · intro hread
    exact ⟨h.exists_convert hread .exporting e, h.exists_convert hread .importing e⟩
  · intro x hx R ρ v he
    exact means_of_denotes (h.convert_denotes .exporting e x hpost hx ρ v he)
  · intro x hx R ρ v he
    exact means_of_denotes (h.convert_denotes .importing e x hpost hx ρ v he)
  · intro R hR
    have hback : ∀ v, p.toNative R (p.toShown R v) = v := Plan.toNative_toShown hR p
    refine ⟨hback, ?_⟩
    intro x y z ρ v hx hz he
    refine ⟨p.toShown R v, h.convert_denotes .exporting e x hpost hx ρ v he, ?_⟩
    have hname : Denotes R (ρ.push y ⟨p.shown, p.toShown R v⟩) (.name y) p.shown (p.toShown R v) :=
      .name (Env.push_self ρ y _)
    have hz' := h.convert_denotes .importing (.name y) z rfl hz _ _ hname
    rwa [show p.convert R .importing (p.toShown R v) = v from hback v] at hz'

/-- A class of a session that exports it, and the callbacks that take lists of its instances. -/
def album : Shape := { name := "Album", package := "music" }

def albumCallback : Shape :=
  { Shape.kotlin "Function1" [.listOf (album.withNullable true), .long] with nullable := true }

def albumTable : Table :=
  ⟨sessionRules [(album, "Album")] [] false⟩

theorem ofSession_albumTable : Table.ofSession [(album, "Album")] [] false = .ok albumTable :=
  ofSession_eq_ok (by decide)

theorem exported_albumCallback :
    albumTable.exported albumCallback =
      .ok { Shape.kotlin "Function1"
        [.arrayOf { name := "Album", package := "music.js", nullable := true }, .double] with
        nullable := true } := by
  decide

theorem conversion_code_means_conversion_of_callback :
    WellFormed [(album, "Album")] [] albumCallback ∧ Readable albumCallback ∧
      (Expr.name "f").isPostfix = true ∧
      ∀ members, ∃ x, albumTable.exportExpr (.name "f") albumCallback = .ok x ∧
        ∀ (R : Runtime (sessionSignature [(album, "Album")] [] false members)) ρ v,
          Denotes R ρ (.name "f") (albumTable.plan _ albumCallback).native v →
            Means R ρ x _ ((albumTable.plan _ albumCallback).toShown R v) := by
  have hs : WellFormed [(album, "Album")] [] albumCallback := by decide
  have hread : Readable albumCallback := by decide
  refine ⟨hs, hread, rfl, fun members => ?_⟩
  obtain ⟨-, hcode, hmeans, -⟩ := conversion_code_means_conversion ofSession_albumTable hs
    exported_albumCallback (e := .name "f") rfl members
  obtain ⟨x, hx⟩ := (hcode hread).1
  exact ⟨x, hx, hmeans x hx⟩

/-- A shape can be shown although no conversion can be written: the number in an argument of a
parameter type is read only when the lambda is written. -/
theorem exists_shown_without_conversion_code :
    ∃ T s, Table.ofSession [] [] false = .ok T ∧ WellFormed [] [] s ∧ T.exported s = .ok s ∧
      ∀ e x, T.exportExpr e s ≠ .ok x ∧ T.importExpr e s ≠ .ok x := by
  have hlong : Text.maxDigits < 4301 := by decide
  refine ⟨builtinTable, functionOn (longNumber 4301), ofSession_builtinTable, by decide,
    exported_functionOn _, fun e x => ⟨?_, ?_⟩⟩
  · exact convert_functionOn_longNumber hlong .exporting e x
  · exact convert_functionOn_longNumber hlong .importing e x

end Session

end Mapping
end Facade
