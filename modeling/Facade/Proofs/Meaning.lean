import Facade.Proofs.Typing

/-!
# Meaning of generated code

Every type has values, and an expression denotes a value in a scope that gives values to its names.
Calls, casts and members are total functions of a runtime: generated code is read as a pure term,
and what a runtime does for a failed cast is left open.

**Input.**  A runtime: what objects are, and the functions that generated code calls on them.

**Results.**
* `Denotes.agree`: the value depends only on the values of the names an expression refers to.
* `exists_denotes_iff`: an expression has a type exactly when it denotes a value of that type.
* `Denotes.unique`: an expression denotes one value if no two members share name and receiver.
-/

namespace Facade
namespace Code

mutual

/-- The values of a type, over the objects of every class. -/
def Value (O : Shape → Type) : Ty → Type
  | .object type => O type
  | .longArray => List (O .long)
  | .array element => List (Value O element)
  | .list element => List (Value O element)
  | .function params result => Values O params → Value O result
  | .nullable type => Option (Value O type)

/-- Arguments of the given types. -/
def Values (O : Shape → Type) : List Ty → Type
  | [] => Unit
  | type :: rest => Value O type × Values O rest

end

/-- A value with its type. -/
abbrev Typed (O : Shape → Type) :=
  Σ t : Ty, Value O t

section Values

variable {O : Shape → Type}

/-- The arguments, each with its type. -/
def Values.typed : (ts : List Ty) → Values O ts → List (Typed O)
  | [], _ => []
  | t :: ts, vs => ⟨t, vs.1⟩ :: typed ts vs.2

@[simp] theorem Values.map_fst_typed (ts : List Ty) (vs : Values O ts) :
    (vs.typed ts).map Sigma.fst = ts := by
  induction ts with
  | nil => rfl
  | cons t ts ih => simp [typed, ih]

/-- The result of a function. -/
def Value.apply {ts : List Ty} {u : Ty} (f : Value O (.function ts u)) (vs : Values O ts) :
    Value O u :=
  f vs

/-- Null, as a value of a type that admits it. -/
def Value.null : (t : Ty) → Value O t.orNull
  | .nullable _ => none
  | .object _ => none
  | .longArray => none
  | .array _ => none
  | .list _ => none
  | .function _ _ => none

/-- A value, as one of the type that also admits null. -/
def Value.orNull : (t : Ty) → Value O t → Value O t.orNull
  | .nullable _, v => v
  | .object _, v => some v
  | .longArray, v => some v
  | .array _, v => some v
  | .list _, v => some v
  | .function _ _, v => some v

/-- A function after a null check of its argument when `safe` is set. -/
def Value.through (safe : Bool) {t u : Ty} (f : Value O t → Value O u) :
    Value O (t.mark safe) → Value O (u.after safe) :=
  match safe with
  | false => f
  | true => fun v => Option.elim v (Value.null u) fun x => Value.orNull u (f x)

end Values

/-- What the objects are and what the functions do that generated code calls. -/
structure Runtime (S : Signature) where
  Object : Shape → Type
  toDouble : Object .long → Object .double
  toLong : Object .double → Object .long
  /-- The error with the given cause. -/
  error : ∀ {k : Key}, k ∈ S.exceptions → Object (.ofKey k) → Object .error
  cause : Object .error → Option (Object (.kotlin "Throwable"))
  /-- A cause as an exception of the given class. -/
  cast : ∀ {k : Key}, k ∈ S.exceptions → Option (Object (.kotlin "Throwable")) → Object (.ofKey k)
  exporter : ∀ {native : Shape} {wrapper : Key}, (native, wrapper) ∈ S.wrappers →
    Object native → Object (.ofKey wrapper)
  importer : ∀ {native : Shape} {wrapper : Key}, (native, wrapper) ∈ S.wrappers →
    Object (.ofKey wrapper) → Object native
  member : ∀ {m : String} {t u : Ty}, S.members m t u → Value Object t → Value Object u

variable {S : Signature}

/-- A cast of a cause; null is kept when the type admits it. -/
def Runtime.castTo (R : Runtime S) {k : Key} (hk : k ∈ S.exceptions) (nullable : Bool)
    (cause : Option (R.Object (.kotlin "Throwable"))) :
    Value R.Object ((Ty.object (.ofKey k)).mark nullable) :=
  match nullable with
  | false => R.cast hk cause
  | true => cause.map fun t => R.cast hk (some t)

/-- The members of values, with the function that reads them. -/
inductive Selects (R : Runtime S) :
    String → (t u : Ty) → (Value R.Object t → Value R.Object u) → Prop
  | toDouble :
      Selects R "toDouble" (.object .long) (.function [] (.object .double))
        fun v _ => R.toDouble v
  | toLong :
      Selects R "toLong" (.object .double) (.function [] (.object .long))
        fun v _ => R.toLong v
  | toLongArray :
      Selects R "toLongArray" (.list (.object .long)) (.function [] .longArray)
        fun v _ => v
  | toTypedArray {t : Ty} :
      Selects R "toTypedArray" (.list t) (.function [] (.array t)) fun v _ => v
  | toList {t : Ty} :
      Selects R "toList" (.array t) (.function [] (.list t)) fun v _ => v
  | cause :
      Selects R "cause" (.object .error) (.nullable throwable) R.cause
  | exporter {native : Shape} {wrapper : Key} (h : (native, wrapper) ∈ S.wrappers) :
      Selects R (Name.exporter wrapper.name) (.object native)
        (.function [] (.object (.ofKey wrapper))) fun v _ => R.exporter h v
  | importer {native : Shape} {wrapper : Key} (h : (native, wrapper) ∈ S.wrappers) :
      Selects R (Name.importer wrapper.name) (.object (.ofKey wrapper))
        (.function [] (.object native)) fun v _ => R.importer h v
  | other {m : String} {t u : Ty} (h : S.members m t u) :
      Selects R m t u (R.member h)

/-- The elements of the values that `map` goes through. -/
inductive Items (O : Shape → Type) :
    (t a : Ty) → (Value O t → List (Value O a)) → Prop
  | array {t : Ty} : Items O (.array t) t fun v => v
  | list {t : Ty} : Items O (.list t) t fun v => v
  | longArray : Items O .longArray (.object .long) fun v => v

/-- A member has a meaning exactly if the signature has it. -/
theorem exists_selects_iff (R : Runtime S) {m : String} {t u : Ty} :
    (∃ f, Selects R m t u f) ↔ Member S m t u := by
  constructor
  · rintro ⟨f, hf⟩
    cases hf with
    | toDouble => exact .toDouble
    | toLong => exact .toLong
    | toLongArray => exact .toLongArray
    | toTypedArray => exact .toTypedArray
    | toList => exact .toList
    | cause => exact .cause
    | exporter h => exact .exporter h
    | importer h => exact .importer h
    | other h => exact .other h
  · intro h
    cases h with
    | toDouble => exact ⟨_, .toDouble⟩
    | toLong => exact ⟨_, .toLong⟩
    | toLongArray => exact ⟨_, .toLongArray⟩
    | toTypedArray => exact ⟨_, .toTypedArray⟩
    | toList => exact ⟨_, .toList⟩
    | cause => exact ⟨_, .cause⟩
    | exporter h => exact ⟨_, .exporter h⟩
    | importer h => exact ⟨_, .importer h⟩
    | other h => exact ⟨_, .other h⟩

theorem exists_items_iff (O : Shape → Type) {t a : Ty} :
    (∃ f, Items O t a f) ↔ Elements t a := by
  constructor
  · rintro ⟨f, hf⟩
    cases hf with
    | array => exact .array
    | list => exact .list
    | longArray => exact .longArray
  · intro h
    cases h with
    | array => exact ⟨_, .array⟩
    | list => exact ⟨_, .list⟩
    | longArray => exact ⟨_, .longArray⟩

mutual

/-- The values of expressions in a scope. -/
inductive Denotes (R : Runtime S) :
    Env (Typed R.Object) → Expr → (t : Ty) → Value R.Object t → Prop
  | name {ρ : Env (Typed R.Object)} {x : String} {t : Ty} {v : Value R.Object t}
      (h : ρ x = some ⟨t, v⟩) :
      Denotes R ρ (.name x) t v
  | member {ρ : Env (Typed R.Object)} {e : Expr} {safe : Bool} {m : String} {t u t' : Ty}
      {v : Value R.Object (t.mark safe)} {f : Value R.Object t → Value R.Object u}
      {w : Value R.Object t'}
      (hpost : e.isPostfix = true)
      (he : Denotes R ρ e (t.mark safe) v)
      (hm : Selects R m t u f)
      (hw : (⟨t', w⟩ : Typed R.Object) = ⟨u.after safe, Value.through safe f v⟩) :
      Denotes R ρ (.member e safe m) t' w
  | call {ρ : Env (Typed R.Object)} {f : Expr} {args : List Expr} {ts : List Ty} {u : Ty}
      {g : Value R.Object (.function ts u)} {vs : Values R.Object ts} {w : Value R.Object u}
      (hpost : f.isPostfix = true)
      (hf : Denotes R ρ f (.function ts u) g)
      (hargs : DenoteAll R ρ args ts vs)
      (hw : w = g.apply vs) :
      Denotes R ρ (.call f args) u w
  /-- A method called after a null check. -/
  | safeCall {ρ : Env (Typed R.Object)} {e : Expr} {m : String} {args : List Expr}
      {ts : List Ty} {u t' : Ty} {g : Value R.Object (.nullable (.function ts u))}
      {vs : Values R.Object ts} {w : Value R.Object t'}
      (hf : Denotes R ρ (.member e true m) (.nullable (.function ts u)) g)
      (hargs : DenoteAll R ρ args ts vs)
      (hw : (⟨t', w⟩ : Typed R.Object) =
        ⟨u.orNull, Value.through true (fun h : Value R.Object (.function ts u) => h.apply vs) g⟩) :
      Denotes R ρ (.call (.member e true m) args) t' w
  | map {ρ : Env (Typed R.Object)} {e body : Expr} {safe : Bool} {m : String} {t a b t' : Ty}
      {v : Value R.Object (t.mark safe)} {items : Value R.Object t → List (Value R.Object a)}
      {f : Value R.Object a → Value R.Object b} {w : Value R.Object t'}
      (hmap : m = "map")
      (hpost : e.isPostfix = true)
      (he : Denotes R ρ e (t.mark safe) v)
      (ht : Items R.Object t a items)
      (hbody : ∀ x, Denotes R (ρ.push "it" ⟨a, x⟩) body b (f x))
      (hw : (⟨t', w⟩ : Typed R.Object) =
        ⟨(Ty.list b).after safe,
          Value.through safe (u := .list b) (fun l => (items l).map f) v⟩) :
      Denotes R ρ (.trailing (.member e safe m) (.implicit body)) t' w
  | letIt {ρ : Env (Typed R.Object)} {e body : Expr} {m : String} {t u t' : Ty}
      {v : Value R.Object (.nullable t)} {f : Value R.Object t → Value R.Object u}
      {w : Value R.Object t'}
      (hlet : m = "let")
      (hpost : e.isPostfix = true)
      (he : Denotes R ρ e (.nullable t) v)
      (hbody : ∀ x, Denotes R (ρ.push "it" ⟨t, x⟩) body u (f x))
      (hw : (⟨t', w⟩ : Typed R.Object) = ⟨u.orNull, Value.through true f v⟩) :
      Denotes R ρ (.trailing (.member e true m) (.implicit body)) t' w
  | letNamed {ρ : Env (Typed R.Object)} {e body : Expr} {m y : String} {t u t' : Ty}
      {v : Value R.Object (.nullable t)} {f : Value R.Object t → Value R.Object u}
      {w : Value R.Object t'}
      (hlet : m = "let")
      (hpost : e.isPostfix = true)
      (he : Denotes R ρ e (.nullable t) v)
      (hbody : ∀ x, Denotes R (ρ.push y ⟨t, x⟩) body u (f x))
      (hw : (⟨t', w⟩ : Typed R.Object) = ⟨u.orNull, Value.through true f v⟩) :
      Denotes R ρ (.trailing (.member e true m) (.lambda [⟨y, none⟩] body)) t' w
  | error {ρ : Env (Typed R.Object)} {e : Expr} {k : Key}
      {v : Value R.Object (.object (.ofKey k))} {w : Value R.Object (.object .error)}
      (hk : k ∈ S.exceptions)
      (he : Denotes R ρ e (.object (.ofKey k)) v)
      (hw : w = R.error hk v) :
      Denotes R ρ (.call (.name Shape.error.name) [.named "cause" e]) (.object .error) w
  | cast {ρ : Env (Typed R.Object)} {e : Expr} {k : Key} {nullable : Bool} {t' : Ty}
      {v : Value R.Object (.nullable throwable)} {w : Value R.Object t'}
      (hpost : e.isPostfix = true)
      (hk : k ∈ S.exceptions)
      (he : Denotes R ρ e (.nullable throwable) v)
      (hw : (⟨t', w⟩ : Typed R.Object) =
        ⟨(Ty.object (.ofKey k)).mark nullable, R.castTo hk nullable v⟩) :
      Denotes R ρ (.cast e k nullable) t' w
  | lambda {ρ : Env (Typed R.Object)} {params : List (String × Shape)} {body : Expr}
      {binders : List Binder} {ts : List Ty} {u : Ty} {f : Value R.Object (.function ts u)}
      (hparams : binders = params.map typedBinder)
      (hts : ts = params.map fun b => b.2.ty)
      (hbody : ∀ vs : Values R.Object ts,
        Denotes R (ρ.pushAll ((params.map Prod.fst).zip (vs.typed ts))) body u (f.apply vs)) :
      Denotes R ρ (.lambda binders body) (.function ts u) f

/-- The values of arguments in a scope. -/
inductive DenoteAll (R : Runtime S) :
    Env (Typed R.Object) → List Expr → (ts : List Ty) → Values R.Object ts → Prop
  | nil {ρ : Env (Typed R.Object)} {vs : Values R.Object []} :
      DenoteAll R ρ [] [] vs
  | cons {ρ : Env (Typed R.Object)} {e : Expr} {es : List Expr} {t : Ty} {ts : List Ty}
      {vs : Values R.Object (t :: ts)}
      (he : Denotes R ρ e t vs.1)
      (hes : DenoteAll R ρ es ts vs.2) :
      DenoteAll R ρ (e :: es) (t :: ts) vs

end

section Agreement

variable {R : Runtime S}

mutual

/-- The meaning of code only rests on the names that it mentions. -/
theorem Denotes.agree {ρ : Env (Typed R.Object)} {e : Expr} {t : Ty} {v : Value R.Object t} :
    Denotes R ρ e t v → ∀ σ : Env (Typed R.Object), (∀ x ∈ e.names, σ x = ρ x) →
      Denotes R σ e t v
  | .name h, σ, hagree => .name (by rw [hagree _ (by simp [Expr.names]), h])
  | .member hpost he hm hw, σ, hagree => .member hpost (he.agree σ hagree) hm hw
  | .call hpost hf hargs hw, σ, hagree =>
      .call hpost (hf.agree σ fun x hx => hagree x (by simp [Expr.names, hx]))
        (hargs.agree σ fun x hx => hagree x (by simp [Expr.names, hx])) hw
  | .safeCall hf hargs hw, σ, hagree =>
      .safeCall (hf.agree σ fun x hx => hagree x (by simp [Expr.names] at hx ⊢; simp [hx]))
        (hargs.agree σ fun x hx => hagree x (by simp [Expr.names, hx])) hw
  | .map hmap hpost he ht hbody hw, σ, hagree =>
      .map hmap hpost (he.agree σ fun x hx => hagree x (by simp [Expr.names, hx])) ht
        (fun y => (hbody y).agree _ fun x hx =>
          Env.push_congr _ (hagree x (by simp [Expr.names, hx]))) hw
  | .letIt hlet hpost he hbody hw, σ, hagree =>
      .letIt hlet hpost (he.agree σ fun x hx => hagree x (by simp [Expr.names, hx]))
        (fun y => (hbody y).agree _ fun x hx =>
          Env.push_congr _ (hagree x (by simp [Expr.names, hx]))) hw
  | .letNamed hlet hpost he hbody hw, σ, hagree =>
      .letNamed hlet hpost (he.agree σ fun x hx => hagree x (by simp [Expr.names, hx]))
        (fun y => (hbody y).agree _ fun x hx =>
          Env.push_congr _ (hagree x (by simp [Expr.names, hx]))) hw
  | .error hk he hw, σ, hagree =>
      .error hk (he.agree σ fun x hx => hagree x (by simp [Expr.names, Expr.namesAll, hx])) hw
  | .cast hpost hk he hw, σ, hagree => .cast hpost hk (he.agree σ hagree) hw
  | .lambda hparams hts hbody, σ, hagree =>
      .lambda hparams hts fun vs => (hbody vs).agree _ fun x hx => Env.pushAll_congr (hagree x hx)

theorem DenoteAll.agree {ρ : Env (Typed R.Object)} {es : List Expr} {ts : List Ty}
    {vs : Values R.Object ts} :
    DenoteAll R ρ es ts vs → ∀ σ : Env (Typed R.Object), (∀ x ∈ Expr.namesAll es, σ x = ρ x) →
      DenoteAll R σ es ts vs
  | .nil, _, _ => .nil
  | .cons he hes, σ, hagree =>
      .cons (he.agree σ fun x hx => hagree x (by simp [Expr.namesAll, hx]))
        (hes.agree σ fun x hx => hagree x (by simp [Expr.namesAll, hx]))

end

theorem Denotes.of_typed_eq {ρ : Env (Typed R.Object)} {e : Expr} {t t' : Ty}
    {v : Value R.Object t} {v' : Value R.Object t'}
    (h : (⟨t, v⟩ : Typed R.Object) = ⟨t', v'⟩)
    (he : Denotes R ρ e t v) :
    Denotes R ρ e t' v' := by
  cases h
  exact he

/-- The value of a method called without arguments, with or without a null check. -/
theorem Denotes.send {ρ : Env (Typed R.Object)} {e : Expr} {safe : Bool} {m : String}
    {t u t' : Ty} {v : Value R.Object (t.mark safe)}
    {f : Value R.Object t → Value R.Object (.function [] u)} {w : Value R.Object t'}
    (hpost : e.isPostfix = true)
    (he : Denotes R ρ e (t.mark safe) v)
    (hm : Selects R m t (.function [] u) f)
    (hw : (⟨t', w⟩ : Typed R.Object) =
      ⟨u.after safe, Value.through safe (fun x => (f x).apply ()) v⟩) :
    Denotes R ρ (e.send safe m) t' w := by
  cases safe with
  | false =>
      cases hw
      exact .call rfl (.member hpost he hm rfl) .nil rfl
  | true =>
      have hnone : DenoteAll R ρ [] [] () := .nil
      refine .safeCall (.member hpost he hm rfl) hnone (hw.trans (congrArg (Sigma.mk _) ?_))
      cases v with
      | none => rfl
      | some x => rfl

end Agreement

section Typing

variable {R : Runtime S}

/-- The types of the names in scope. -/
def Env.types {O : Shape → Type} (ρ : Env (Typed O)) : Env Ty :=
  fun x => (ρ x).map Sigma.fst

theorem Env.types_push {O : Shape → Type} (ρ : Env (Typed O)) (x : String) (v : Typed O) :
    (ρ.push x v).types = ρ.types.push x v.1 := by
  funext y
  by_cases h : y = x
  · simp [types, push, h]
  · simp [types, push, h]

theorem Env.types_pushAll {O : Shape → Type}
    (ρ : Env (Typed O)) (names : List String) (vs : List (Typed O)) :
    (ρ.pushAll (names.zip vs)).types = ρ.types.pushAll (names.zip (vs.map Sigma.fst)) := by
  induction names generalizing ρ vs with
  | nil => rfl
  | cons n names ih =>
      cases vs with
      | nil => rfl
      | cons v vs => simp [pushAll, ih, types_push]

theorem zip_map_fst_ty (params : List (String × Shape)) :
    (params.map Prod.fst).zip (params.map fun b => b.2.ty) = params.map fun b => (b.1, b.2.ty) := by
  induction params with
  | nil => rfl
  | cons b rest ih => simp [ih]

mutual

/-- Code that has a type has a meaning, by induction over its typing. -/
theorem HasType.denotes {Γ : Env Ty} {e : Expr} {t : Ty} :
    HasType S Γ e t → ∀ ρ : Env (Typed R.Object), ρ.types = Γ → ∃ v, Denotes R ρ e t v
  | .name h, ρ, hρ => by
      subst hρ
      obtain ⟨⟨u, v⟩, hv, rfl⟩ := Option.map_eq_some_iff.1 h
      exact ⟨v, .name hv⟩
  | .member hpost he hm hv, ρ, hρ => by
      subst hv
      obtain ⟨v, hden⟩ := he.denotes ρ hρ
      obtain ⟨f, hf⟩ := (exists_selects_iff R).2 hm
      exact ⟨_, .member hpost hden hf rfl⟩
  | .call hpost hf hargs, ρ, hρ => by
      obtain ⟨g, hg⟩ := hf.denotes ρ hρ
      obtain ⟨vs, hvs⟩ := hargs.denotes ρ hρ
      exact ⟨_, .call hpost hg hvs rfl⟩
  | .safeCall hf hargs hv, ρ, hρ => by
      subst hv
      obtain ⟨g, hg⟩ := hf.denotes ρ hρ
      obtain ⟨vs, hvs⟩ := hargs.denotes ρ hρ
      exact ⟨_, .safeCall hg hvs rfl⟩
  | .map (a := a) hmap hpost he ht hbody hv, ρ, hρ => by
      subst hv
      obtain ⟨v, hden⟩ := he.denotes ρ hρ
      obtain ⟨items, hitems⟩ := (exists_items_iff R.Object).2 ht
      have hall := fun x : Value R.Object a =>
        hbody.denotes (ρ.push "it" ⟨a, x⟩) (by rw [Env.types_push, hρ])
      choose f hf using hall
      exact ⟨_, .map hmap hpost hden hitems hf rfl⟩
  | .letIt (t := t) hlet hpost he hbody hv, ρ, hρ => by
      subst hv
      obtain ⟨v, hden⟩ := he.denotes ρ hρ
      have hall := fun x : Value R.Object t =>
        hbody.denotes (ρ.push "it" ⟨t, x⟩) (by rw [Env.types_push, hρ])
      choose f hf using hall
      exact ⟨_, .letIt hlet hpost hden hf rfl⟩
  | .letNamed (t := t) (x := y) hlet hpost he hbody hv, ρ, hρ => by
      subst hv
      obtain ⟨v, hden⟩ := he.denotes ρ hρ
      have hall := fun x : Value R.Object t =>
        hbody.denotes (ρ.push y ⟨t, x⟩) (by rw [Env.types_push, hρ])
      choose f hf using hall
      exact ⟨_, .letNamed hlet hpost hden hf rfl⟩
  | .error hk he, ρ, hρ => by
      obtain ⟨v, hden⟩ := he.denotes ρ hρ
      exact ⟨_, .error hk hden rfl⟩
  | .cast hpost hk he hv, ρ, hρ => by
      subst hv
      obtain ⟨v, hden⟩ := he.denotes ρ hρ
      exact ⟨_, .cast hpost hk hden rfl⟩
  | @HasType.lambda _ _ params _ _ _ _ hparams hts hbody, ρ, hρ => by
      subst hts
      have hall := fun vs : Values R.Object (params.map fun b => b.2.ty) =>
        hbody.denotes (ρ.pushAll ((params.map Prod.fst).zip (vs.typed _)))
          (by rw [Env.types_pushAll, Values.map_fst_typed, zip_map_fst_ty, hρ])
      choose f hf using hall
      exact ⟨f, .lambda hparams rfl hf⟩

theorem HaveTypes.denotes {Γ : Env Ty} {es : List Expr} {ts : List Ty} :
    HaveTypes S Γ es ts → ∀ ρ : Env (Typed R.Object), ρ.types = Γ → ∃ vs, DenoteAll R ρ es ts vs
  | .nil, _, _ => ⟨(), .nil⟩
  | .cons he hes, ρ, hρ => by
      obtain ⟨v, hv⟩ := he.denotes ρ hρ
      obtain ⟨vs, hvs⟩ := hes.denotes ρ hρ
      exact ⟨(v, vs), .cons hv hvs⟩

end

theorem Value.nonempty {O : Shape → Type}
    (hO : ∀ s, Nonempty (O s)) :
    (t : Ty) → Nonempty (Value O t)
  | .object s => hO s
  | .longArray => ⟨[]⟩
  | .array _ => ⟨[]⟩
  | .list _ => ⟨[]⟩
  | .function _ u => (Value.nonempty hO u).map fun v _ => v
  | .nullable _ => ⟨none⟩

theorem Values.nonempty {O : Shape → Type}
    (hO : ∀ s, Nonempty (O s)) :
    (ts : List Ty) → Nonempty (Values O ts)
  | [] => ⟨()⟩
  | t :: ts => by
      obtain ⟨v⟩ := Value.nonempty hO t
      obtain ⟨vs⟩ := Values.nonempty hO ts
      exact ⟨(v, vs)⟩

mutual

/-- Code that has a meaning has a type. -/
theorem Denotes.hasType
    (hR : ∀ s, Nonempty (R.Object s))
    {ρ : Env (Typed R.Object)} {e : Expr} {t : Ty} {v : Value R.Object t} :
    Denotes R ρ e t v → HasType S ρ.types e t
  | .name h => .name (by simp [Env.types, h])
  | .member hpost he hm hw =>
      .member hpost (he.hasType hR) ((exists_selects_iff R).1 ⟨_, hm⟩) (congrArg Sigma.fst hw)
  | .call hpost hf hargs hw => .call hpost (hf.hasType hR) (hargs.haveTypes hR)
  | .safeCall hf hargs hw =>
      .safeCall (hf.hasType hR) (hargs.haveTypes hR) (congrArg Sigma.fst hw)
  | .map (a := a) hmap hpost he ht hbody hw => by
      obtain ⟨x⟩ := Value.nonempty hR a
      have hty := (hbody x).hasType hR
      rw [Env.types_push] at hty
      exact .map hmap hpost (he.hasType hR) ((exists_items_iff R.Object).1 ⟨_, ht⟩) hty
        (congrArg Sigma.fst hw)
  | .letIt (t := t) hlet hpost he hbody hw => by
      obtain ⟨x⟩ := Value.nonempty hR t
      have hty := (hbody x).hasType hR
      rw [Env.types_push] at hty
      exact .letIt hlet hpost (he.hasType hR) hty (congrArg Sigma.fst hw)
  | .letNamed (t := t) hlet hpost he hbody hw => by
      obtain ⟨x⟩ := Value.nonempty hR t
      have hty := (hbody x).hasType hR
      rw [Env.types_push] at hty
      exact .letNamed hlet hpost (he.hasType hR) hty (congrArg Sigma.fst hw)
  | .error hk he hw => .error hk (he.hasType hR)
  | .cast hpost hk he hw => .cast hpost hk (he.hasType hR) (congrArg Sigma.fst hw)
  | .lambda hparams hts hbody => by
      obtain ⟨vs⟩ := Values.nonempty hR _
      have hty := (hbody vs).hasType hR
      rw [Env.types_pushAll, Values.map_fst_typed, hts, zip_map_fst_ty] at hty
      exact .lambda hparams hts hty

theorem DenoteAll.haveTypes
    (hR : ∀ s, Nonempty (R.Object s))
    {ρ : Env (Typed R.Object)} {es : List Expr} {ts : List Ty} {vs : Values R.Object ts} :
    DenoteAll R ρ es ts vs → HaveTypes S ρ.types es ts
  | .nil => .nil
  | .cons he hes => .cons (he.hasType hR) (hes.haveTypes hR)

end

/-- Code has a meaning of a type exactly if it has the type. -/
theorem exists_denotes_iff
    (hR : ∀ s, Nonempty (R.Object s))
    {ρ : Env (Typed R.Object)} {e : Expr} {t : Ty} :
    (∃ v, Denotes R ρ e t v) ↔ HasType S ρ.types e t :=
  ⟨fun ⟨_, h⟩ => h.hasType hR, fun h => h.denotes ρ rfl⟩

/-- Every typing of names is that of some values. -/
theorem exists_types_eq {O : Shape → Type}
    (hO : ∀ s, Nonempty (O s)) (Γ : Env Ty) :
    ∃ ρ : Env (Typed O), ρ.types = Γ := by
  obtain ⟨v⟩ := Classical.nonempty_pi.2 (Value.nonempty hO)
  refine ⟨fun x => (Γ x).map fun t => ⟨t, v t⟩, ?_⟩
  funext x
  simp [Env.types, Function.comp_def]

/-- A runtime with one object of every class, which shows that runtimes exist. -/
theorem exists_runtime (S : Signature) :
    ∃ R : Runtime S, ∀ s, Nonempty (R.Object s) := by
  obtain ⟨v⟩ := Classical.nonempty_pi.2 (Value.nonempty (O := fun _ => Unit) fun _ => ⟨()⟩)
  exact ⟨{
    Object := fun _ => Unit
    toDouble := id
    toLong := id
    error := fun _ _ => ()
    cause := fun _ => none
    cast := fun _ _ => ()
    exporter := fun _ _ => ()
    importer := fun _ _ => ()
    member := fun _ _ => v _ }, fun _ => ⟨()⟩⟩

end Typing

section Uniqueness

/-- No two members share their name and the type of their receiver. -/
def Runtime.Unambiguous (R : Runtime S) : Prop :=
  ∀ m t u u' f f', Selects R m t u f → Selects R m t u' f' →
    (⟨u, f⟩ : Σ u, Value R.Object t → Value R.Object u) = ⟨u', f'⟩

variable {R : Runtime S}

/-- A collection has one kind of elements. -/
theorem Items.unique {O : Shape → Type} {t a a' : Ty}
    {items : Value O t → List (Value O a)} {items' : Value O t → List (Value O a')}
    (h : Items O t a items)
    (h' : Items O t a' items') :
    (⟨a, items⟩ : Σ a, Value O t → List (Value O a)) = ⟨a', items'⟩ := by
  cases h <;> cases h' <;> rfl

/-- Functions that give equal values of equal types are equal. -/
theorem Typed.funext {O : Shape → Type} {α : Type} {b b' : Ty}
    {f : α → Value O b} {f' : α → Value O b'}
    (hα : Nonempty α)
    (h : ∀ x, (⟨b, f x⟩ : Typed O) = ⟨b', f' x⟩) :
    (⟨b, f⟩ : Σ b, α → Value O b) = ⟨b', f'⟩ := by
  obtain ⟨x⟩ := hα
  obtain rfl : b = b' := congrArg Sigma.fst (h x)
  obtain rfl : f = f' := by
    funext x
    exact eq_of_heq (Sigma.mk.inj (h x)).2
  rfl

theorem Shape.ofKey_injective {k k' : Key}
    (h : Shape.ofKey k = Shape.ofKey k') :
    k = k' := by
  obtain ⟨name, package⟩ := k
  obtain ⟨name', package'⟩ := k'
  simpa [Shape.ofKey, and_comm] using h

mutual

/-- Code has at most one meaning if members are unambiguous. -/
theorem Denotes.unique
    (hO : ∀ s, Nonempty (R.Object s))
    (hR : R.Unambiguous)
    {ρ : Env (Typed R.Object)} {e : Expr} {t : Ty} {v : Value R.Object t} :
    Denotes R ρ e t v → ∀ t' v', Denotes R ρ e t' v' → (⟨t, v⟩ : Typed R.Object) = ⟨t', v'⟩
  | .name h, t', v', h' => by
      cases h' with
      | name h' => exact Option.some.inj (h.symm.trans h')
  | .member hpost he hm hw, t', v', h' => by
      cases h' with
      | member hpost' he' hm' hw' =>
          have hv := he.unique hO hR _ _ he'
          obtain rfl := Ty.mark_injective (congrArg Sigma.fst hv)
          obtain rfl := eq_of_heq (Sigma.mk.inj hv).2
          cases hR _ _ _ _ _ _ hm hm'
          exact hw.trans hw'.symm
  | .call hpost hf hargs hw, t', v', h' => by
      cases h' with
      | call hpost' hf' hargs' hw' =>
          cases hf.unique hO hR _ _ hf'
          obtain rfl := hargs.unique hO hR _ hargs'
          rw [hw, hw']
      | safeCall hf' hargs' hw' =>
          -- after a null check there is no function, only null or a function
          have hv := congrArg Sigma.fst (hf.unique hO hR _ _ hf')
          simp at hv
      | error hk he hw' =>
          cases hargs with
          | cons he hes => cases he
  | .safeCall hf hargs hw, t', v', h' => by
      cases h' with
      | call hpost' hf' hargs' hw' =>
          have hv := congrArg Sigma.fst (hf.unique hO hR _ _ hf')
          simp at hv
      | safeCall hf' hargs' hw' =>
          cases hf.unique hO hR _ _ hf'
          obtain rfl := hargs.unique hO hR _ hargs'
          exact hw.trans hw'.symm
  | .map hmap hpost he ht hbody hw, t', v', h' => by
      cases h' with
      | map hmap' hpost' he' ht' hbody' hw' =>
          have hv := he.unique hO hR _ _ he'
          obtain rfl := Ty.mark_injective (congrArg Sigma.fst hv)
          obtain rfl := eq_of_heq (Sigma.mk.inj hv).2
          cases ht.unique ht'
          cases Typed.funext (Value.nonempty hO _) fun x => (hbody x).unique hO hR _ _ (hbody' x)
          exact hw.trans hw'.symm
      | letIt hlet' => simp [hmap] at hlet'
  | .letIt hlet hpost he hbody hw, t', v', h' => by
      cases h' with
      | map hmap' => simp [hlet] at hmap'
      | letIt hlet' hpost' he' hbody' hw' =>
          cases he.unique hO hR _ _ he'
          cases Typed.funext (Value.nonempty hO _) fun x => (hbody x).unique hO hR _ _ (hbody' x)
          exact hw.trans hw'.symm
  | .letNamed hlet hpost he hbody hw, t', v', h' => by
      cases h' with
      | letNamed hlet' hpost' he' hbody' hw' =>
          cases he.unique hO hR _ _ he'
          cases Typed.funext (Value.nonempty hO _) fun x => (hbody x).unique hO hR _ _ (hbody' x)
          exact hw.trans hw'.symm
  | .error hk he hw, t', v', h' => by
      cases h' with
      | call hpost' hf' hargs' hw' =>
          cases hargs' with
          | cons he hes => cases he
      | error hk' he' hw' =>
          have hv := he.unique hO hR _ _ he'
          obtain rfl := Shape.ofKey_injective (Ty.object.inj (congrArg Sigma.fst hv))
          obtain rfl := eq_of_heq (Sigma.mk.inj hv).2
          rw [hw, hw']
  | .cast hpost hk he hw, t', v', h' => by
      cases h' with
      | cast hpost' hk' he' hw' =>
          cases he.unique hO hR _ _ he'
          exact hw.trans hw'.symm
  | .lambda hparams hts hbody, t', v', h' => by
      cases h' with
      | lambda hparams' hts' hbody' =>
          obtain rfl := List.map_injective_iff.2 typedBinder_injective (hparams.symm.trans hparams')
          obtain rfl := hts.trans hts'.symm
          have hf := Typed.funext (Values.nonempty hO _) fun vs =>
            (hbody vs).unique hO hR _ _ (hbody' vs)
          obtain ⟨rfl, hf⟩ := Sigma.mk.inj hf
          exact congrArg (Sigma.mk _) (eq_of_heq hf)

theorem DenoteAll.unique
    (hO : ∀ s, Nonempty (R.Object s))
    (hR : R.Unambiguous)
    {ρ : Env (Typed R.Object)} {es : List Expr} {ts : List Ty} {vs : Values R.Object ts} :
    DenoteAll R ρ es ts vs → ∀ vs', DenoteAll R ρ es ts vs' → vs = vs'
  | .nil, _, _ => rfl
  | .cons he hes, vs', h' => by
      cases h' with
      | cons he' hes' =>
          have hv := eq_of_heq (Sigma.mk.inj (he.unique hO hR _ _ he')).2
          exact Prod.ext hv (hes.unique hO hR _ hes')

end

end Uniqueness

end Code
end Facade
