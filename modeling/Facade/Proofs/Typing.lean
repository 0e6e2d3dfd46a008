import Facade.Proofs.Types
import Facade.Proofs.Mentions

/-!
# Typing of generated code

Conversions are written in a small part of Kotlin: names, members with and without a null check,
calls, `map` and `let` with a block, typed lambdas, the constructor of errors and casts of their
causes.  This module gives the typing rules of that part.  A receiver and a called expression have
to be postfix expressions, so that a term and its printed text group in the same way.

**Results.**
* `HasType.unique`: an expression has one type if no two members share name and receiver.
-/

namespace Facade
namespace Code

/-- What a session adds to the language. -/
structure Signature where
  /-- The native type of every declaration with the key of its wrapper. -/
  wrappers : List (Shape × Key)
  exceptions : List Key
  /-- The members of all other classes. -/
  members : String → Ty → Ty → Prop

/-- What the names in scope stand for. -/
abbrev Env (α : Type) := String → Option α

namespace Env

variable {α : Type}

/-- The scope with one more name, which hides an older one. -/
def push (Γ : Env α) (x : String) (a : α) : Env α :=
  fun y => if y = x then some a else Γ y

/-- The scope with more names, the last of which is innermost. -/
def pushAll (Γ : Env α) : List (String × α) → Env α
  | [] => Γ
  | (x, a) :: rest => (Γ.push x a).pushAll rest

@[simp] theorem push_self (Γ : Env α) (x : String) (a : α) :
    Γ.push x a x = some a := by
  simp [push]

theorem push_of_ne (Γ : Env α) {x y : String} (a : α)
    (h : y ≠ x) :
    Γ.push x a y = Γ y := by
  simp [push, h]

theorem push_congr {Γ Δ : Env α} {x y : String} (a : α)
    (h : Δ y = Γ y) :
    Δ.push x a y = Γ.push x a y := by
  simp [push, h]

/-- Names that are not bound keep their types. -/
theorem pushAll_of_not_mem {Γ : Env α} {bindings : List (String × α)} {x : String}
    (h : x ∉ bindings.map Prod.fst) :
    Γ.pushAll bindings x = Γ x := by
  induction bindings generalizing Γ with
  | nil => rfl
  | cons b rest ih =>
      simp only [List.map_cons, List.mem_cons, not_or] at h
      rw [pushAll, ih h.2, push_of_ne Γ b.2 h.1]

/-- A name that is bound once has the type that it is bound to. -/
theorem pushAll_of_mem {Γ : Env α} {bindings : List (String × α)} {x : String} {a : α}
    (hnodup : (bindings.map Prod.fst).Nodup)
    (h : (x, a) ∈ bindings) :
    Γ.pushAll bindings x = some a := by
  induction bindings generalizing Γ with
  | nil => simp at h
  | cons b rest ih =>
      rw [List.map_cons, List.nodup_cons] at hnodup
      rcases List.mem_cons.1 h with rfl | h
      · rw [pushAll, pushAll_of_not_mem hnodup.1, push_self]
      · exact ih hnodup.2 h

theorem pushAll_congr {Γ Δ : Env α} {bindings : List (String × α)} {y : String}
    (h : Δ y = Γ y) :
    Δ.pushAll bindings y = Γ.pushAll bindings y := by
  induction bindings generalizing Γ Δ with
  | nil => exact h
  | cons b rest ih => exact ih (push_congr b.2 h)

end Env

/-- The type of exceptions as seen through an error. -/
def throwable : Ty :=
  .object (.kotlin "Throwable")

/-- Whether a member can be selected from the printed form without parentheses around it. -/
def Expr.isPostfix : Expr → Bool
  | .name _ => true
  | .member _ _ _ => true
  | .call _ _ => true
  | .trailing _ _ => true
  | _ => false

/-- The members of a type: `Member S m t u` says that values of type `t` have a member `m` of type
`u`.  Methods are members of a function type. -/
inductive Member (S : Signature) : String → Ty → Ty → Prop
  | toDouble : Member S "toDouble" (.object .long) (.function [] (.object .double))
  | toLong : Member S "toLong" (.object .double) (.function [] (.object .long))
  | toLongArray : Member S "toLongArray" (.list (.object .long)) (.function [] .longArray)
  | toTypedArray {t : Ty} : Member S "toTypedArray" (.list t) (.function [] (.array t))
  | toList {t : Ty} : Member S "toList" (.array t) (.function [] (.list t))
  | cause : Member S "cause" (.object .error) (.nullable throwable)
  | exporter {native : Shape} {wrapper : Key} (h : (native, wrapper) ∈ S.wrappers) :
      Member S (Name.exporter wrapper.name) (.object native)
        (.function [] (.object (.ofKey wrapper)))
  | importer {native : Shape} {wrapper : Key} (h : (native, wrapper) ∈ S.wrappers) :
      Member S (Name.importer wrapper.name) (.object (.ofKey wrapper))
        (.function [] (.object native))
  | other {m : String} {t u : Ty} (h : S.members m t u) : Member S m t u

/-- The collections that `map` goes through, with the type of their elements. -/
inductive Elements : Ty → Ty → Prop
  | array {t : Ty} : Elements (.array t) t
  | list {t : Ty} : Elements (.list t) t
  | longArray : Elements .longArray (.object .long)

/-- A written parameter of a lambda. -/
def typedBinder (b : String × Shape) : Binder :=
  ⟨b.1, some b.2⟩

mutual

/-- The types of expressions in a scope. -/
inductive HasType (S : Signature) : Env Ty → Expr → Ty → Prop
  | name {Γ : Env Ty} {x : String} {t : Ty}
      (h : Γ x = some t) :
      HasType S Γ (.name x) t
  | member {Γ : Env Ty} {e : Expr} {safe : Bool} {m : String} {t u v : Ty}
      (hpost : e.isPostfix = true)
      (he : HasType S Γ e (t.mark safe))
      (hm : Member S m t u)
      (hv : v = u.after safe) :
      HasType S Γ (.member e safe m) v
  | call {Γ : Env Ty} {f : Expr} {args : List Expr} {ts : List Ty} {u : Ty}
      (hpost : f.isPostfix = true)
      (hf : HasType S Γ f (.function ts u))
      (hargs : HaveTypes S Γ args ts) :
      HasType S Γ (.call f args) u
  /-- A method called after a null check. -/
  | safeCall {Γ : Env Ty} {e : Expr} {m : String} {args : List Expr} {ts : List Ty} {u v : Ty}
      (hf : HasType S Γ (.member e true m) (.nullable (.function ts u)))
      (hargs : HaveTypes S Γ args ts)
      (hv : v = u.orNull) :
      HasType S Γ (.call (.member e true m) args) v
  | map {Γ : Env Ty} {e body : Expr} {safe : Bool} {m : String} {t a b v : Ty}
      (hmap : m = "map")
      (hpost : e.isPostfix = true)
      (he : HasType S Γ e (t.mark safe))
      (ht : Elements t a)
      (hbody : HasType S (Γ.push "it" a) body b)
      (hv : v = (Ty.list b).after safe) :
      HasType S Γ (.trailing (.member e safe m) (.implicit body)) v
  | letIt {Γ : Env Ty} {e body : Expr} {m : String} {t u v : Ty}
      (hlet : m = "let")
      (hpost : e.isPostfix = true)
      (he : HasType S Γ e (.nullable t))
      (hbody : HasType S (Γ.push "it" t) body u)
      (hv : v = u.orNull) :
      HasType S Γ (.trailing (.member e true m) (.implicit body)) v
  | letNamed {Γ : Env Ty} {e body : Expr} {m x : String} {t u v : Ty}
      (hlet : m = "let")
      (hpost : e.isPostfix = true)
      (he : HasType S Γ e (.nullable t))
      (hbody : HasType S (Γ.push x t) body u)
      (hv : v = u.orNull) :
      HasType S Γ (.trailing (.member e true m) (.lambda [⟨x, none⟩] body)) v
  | error {Γ : Env Ty} {e : Expr} {k : Key}
      (hk : k ∈ S.exceptions)
      (he : HasType S Γ e (.object (.ofKey k))) :
      HasType S Γ (.call (.name Shape.error.name) [.named "cause" e]) (.object .error)
  | cast {Γ : Env Ty} {e : Expr} {k : Key} {nullable : Bool} {v : Ty}
      (hpost : e.isPostfix = true)
      (hk : k ∈ S.exceptions)
      (he : HasType S Γ e (.nullable throwable))
      (hv : v = (Ty.object (.ofKey k)).mark nullable) :
      HasType S Γ (.cast e k nullable) v
  | lambda {Γ : Env Ty} {params : List (String × Shape)} {binders : List Binder} {body : Expr}
      {ts : List Ty} {u : Ty}
      (hparams : binders = params.map typedBinder)
      (hts : ts = params.map fun b => b.2.ty)
      (hbody : HasType S (Γ.pushAll (params.map fun b => (b.1, b.2.ty))) body u) :
      HasType S Γ (.lambda binders body) (.function ts u)

/-- The types of arguments in a scope. -/
inductive HaveTypes (S : Signature) : Env Ty → List Expr → List Ty → Prop
  | nil {Γ : Env Ty} :
      HaveTypes S Γ [] []
  | cons {Γ : Env Ty} {e : Expr} {es : List Expr} {t : Ty} {ts : List Ty}
      (he : HasType S Γ e t)
      (hes : HaveTypes S Γ es ts) :
      HaveTypes S Γ (e :: es) (t :: ts)

end

section Uniqueness

variable {S : Signature}

/-- No two members share their name and the type of their receiver. -/
def Signature.Unambiguous (S : Signature) : Prop :=
  ∀ m t u u', Member S m t u → Member S m t u' → u = u'

theorem Ty.mark_injective {safe : Bool} {t t' : Ty}
    (h : t.mark safe = t'.mark safe) :
    t = t' := by
  cases safe with
  | false => exact h
  | true => exact Ty.nullable.inj h

theorem typedBinder_injective : Function.Injective typedBinder := by
  rintro ⟨n, s⟩ ⟨n', s'⟩ h
  simpa [typedBinder] using h

/-- A collection has one type of elements. -/
theorem Elements.unique {t a a' : Ty}
    (h : Elements t a)
    (h' : Elements t a') :
    a = a' := by
  cases h <;> cases h' <;> rfl

mutual

/-- Code has at most one type if members are unambiguous. -/
theorem HasType.unique
    (hS : S.Unambiguous) {Γ : Env Ty} {e : Expr} {t : Ty} :
    HasType S Γ e t → ∀ t', HasType S Γ e t' → t = t'
  | .name h, t', h' => by
      cases h' with
      | name h' => exact Option.some.inj (h.symm.trans h')
  | .member hpost he hm hv, t', h' => by
      cases h' with
      | member hpost' he' hm' hv' =>
          obtain rfl := Ty.mark_injective (he.unique hS _ he')
          obtain rfl := hS _ _ _ _ hm hm'
          rw [hv, hv']
  | .call hpost hf hargs, t', h' => by
      cases h' with
      | call hpost' hf' hargs' => exact (Ty.function.inj (hf.unique hS _ hf')).2
      | safeCall hf' hargs' hv' => exact Ty.noConfusion (hf.unique hS _ hf')
      | error hk he =>
          cases hargs with
          | cons he hes => cases he
  | .safeCall hf hargs hv, t', h' => by
      cases h' with
      | call hpost' hf' hargs' => exact Ty.noConfusion (hf.unique hS _ hf')
      | safeCall hf' hargs' hv' =>
          obtain ⟨-, rfl⟩ := Ty.function.inj (Ty.nullable.inj (hf.unique hS _ hf'))
          rw [hv, hv']
  | .map hmap hpost he ht hbody hv, t', h' => by
      cases h' with
      | map hmap' hpost' he' ht' hbody' hv' =>
          obtain rfl := Ty.mark_injective (he.unique hS _ he')
          obtain rfl := ht.unique ht'
          obtain rfl := hbody.unique hS _ hbody'
          rw [hv, hv']
      | letIt hlet' => simp [hmap] at hlet'
  | .letIt hlet hpost he hbody hv, t', h' => by
      cases h' with
      | map hmap' => simp [hlet] at hmap'
      | letIt hlet' hpost' he' hbody' hv' =>
          obtain rfl := Ty.nullable.inj (he.unique hS _ he')
          obtain rfl := hbody.unique hS _ hbody'
          rw [hv, hv']
  | .letNamed hlet hpost he hbody hv, t', h' => by
      cases h' with
      | letNamed hlet' hpost' he' hbody' hv' =>
          obtain rfl := Ty.nullable.inj (he.unique hS _ he')
          obtain rfl := hbody.unique hS _ hbody'
          rw [hv, hv']
  | .error hk he, t', h' => by
      cases h' with
      | call hpost' hf' hargs' =>
          cases hargs' with
          | cons he hes => cases he
      | error hk' he' => rfl
  | .cast hpost hk he hv, t', h' => by
      cases h' with
      | cast hpost' hk' he' hv' => rw [hv, hv']
  | .lambda hparams hts hbody, t', h' => by
      cases h' with
      | lambda hparams' hts' hbody' =>
          obtain rfl := List.map_injective_iff.2 typedBinder_injective (hparams.symm.trans hparams')
          rw [hts, hts', hbody.unique hS _ hbody']

end

end Uniqueness

end Code
end Facade
