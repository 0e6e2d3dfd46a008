import Facade.Proofs.Plan
import Facade.Proofs.Meaning

/-!
# Conversion of values

A plan converts values in both directions: elements of arrays and lists one by one, null to null,
functions by converting their arguments the opposite way and their result the same way.

**Input.**  A runtime for what is done at the leaves: long integers, exceptions, wrappers.

**Results.**
* `toNative_toShown`: if no leaf loses anything, importing an exported value gives the value back.
* `convert_of_isIdentity`: plans that do nothing keep every value, and its type.
-/

namespace Facade
namespace Mapping

open Code

variable {S : Signature}

namespace Plan

mutual

/-- The shown value of a native one. -/
def toShown (R : Runtime S) : (p : Plan S) → Value R.Object p.native → Value R.Object p.shown
  | .keep _, v => v
  | .long, v => R.toDouble v
  | .longArray, v => List.map R.toDouble v
  | .array p, v => List.map (p.toShown R) v
  | .list p, v => List.map (p.toShown R) v
  | .exception _ false h, v => R.error h v
  | .exception _ true h, v => Option.map (R.error h) v
  | .wrapper _ _ h, v => R.exporter h v
  | .function ps r, f => fun vs => r.toShown R (f (toNativeAll R ps vs))
  | .nullable p, v => Option.map (p.toShown R) v

/-- The native value of a shown one. -/
def toNative (R : Runtime S) : (p : Plan S) → Value R.Object p.shown → Value R.Object p.native
  | .keep _, v => v
  | .long, v => R.toLong v
  | .longArray, v => List.map R.toLong v
  | .array p, v => List.map (p.toNative R) v
  | .list p, v => List.map (p.toNative R) v
  | .exception _ false h, v => R.castTo h false (R.cause v)
  | .exception _ true h, v => R.castTo h true (Option.bind v R.cause)
  | .wrapper _ _ h, v => R.importer h v
  | .function ps r, f => fun vs => r.toNative R (f (toShownAll R ps vs))
  | .nullable p, v => Option.map (p.toNative R) v

/-- The shown arguments for native ones. -/
def toShownAll (R : Runtime S) :
    (ps : List (Plan S)) → Values R.Object (nativeAll ps) → Values R.Object (shownAll ps)
  | [], vs => vs
  | p :: ps, vs => (p.toShown R vs.1, toShownAll R ps vs.2)

/-- The native arguments for shown ones. -/
def toNativeAll (R : Runtime S) :
    (ps : List (Plan S)) → Values R.Object (shownAll ps) → Values R.Object (nativeAll ps)
  | [], vs => vs
  | p :: ps, vs => (p.toNative R vs.1, toNativeAll R ps vs.2)

end

/-- The converted value. -/
def convert (R : Runtime S) (d : Direction) (p : Plan S) :
    Value R.Object (p.type d) → Value R.Object (p.type d.flip) :=
  match d with
  | .exporting => p.toShown R
  | .importing => p.toNative R

/-- The converted arguments. -/
def convertAll (R : Runtime S) (d : Direction) (ps : List (Plan S)) :
    Values R.Object (typeAll d ps) → Values R.Object (typeAll d.flip ps) :=
  match d with
  | .exporting => toShownAll R ps
  | .importing => toNativeAll R ps

end Plan

/-- The functions for a leaf are inverse to each other, as far as exported values go. -/
structure Lossless (R : Runtime S) : Prop where
  long : ∀ n, R.toLong (R.toDouble n) = n
  exception : ∀ {k : Key} (h : k ∈ S.exceptions) x,
    ∃ t, R.cause (R.error h x) = some t ∧ R.cast h (some t) = x
  wrapper : ∀ {native : Shape} {k : Key} (h : (native, k) ∈ S.wrappers) x,
    R.importer h (R.exporter h x) = x

/-- The exception that an error was made of is its cause, whether or not it may be null. -/
theorem Lossless.castTo_cause {R : Runtime S}
    (hR : Lossless R) {k : Key} (h : k ∈ S.exceptions) (x : R.Object (.ofKey k)) :
    R.castTo h false (R.cause (R.error h x)) = x ∧
      R.castTo h true (R.cause (R.error h x)) = some x := by
  obtain ⟨t, ht, hx⟩ := hR.exception h x
  rw [ht]
  exact ⟨hx, congrArg some hx⟩

namespace Plan

mutual

/-- A value that is shown and taken back is the value. -/
theorem toNative_toShown {R : Runtime S}
    (hR : Lossless R) :
    (p : Plan S) → (v : Value R.Object p.native) → p.toNative R (p.toShown R v) = v
  | .keep _, v => rfl
  | .long, v => hR.long v
  | .longArray, v => Function.LeftInverse.list_map hR.long v
  | .array p, v => Function.LeftInverse.list_map (toNative_toShown hR p) v
  | .list p, v => Function.LeftInverse.list_map (toNative_toShown hR p) v
  | .exception _ false h, v => (hR.castTo_cause h v).1
  | .exception _ true h, v => by
      cases v with
      | none => rfl
      | some x => exact (hR.castTo_cause h x).2
  | .wrapper _ _ h, v => hR.wrapper h v
  | .function ps r, f => by
      funext vs
      have hargs := toNativeAll_toShownAll hR ps vs
      calc r.toNative R (r.toShown R (f (toNativeAll R ps (toShownAll R ps vs))))
          = r.toNative R (r.toShown R (f vs)) := by rw [hargs]
        _ = f vs := toNative_toShown hR r (f vs)
  | .nullable p, v => by
      cases v with
      | none => rfl
      | some x => exact congrArg some (toNative_toShown hR p x)

theorem toNativeAll_toShownAll {R : Runtime S}
    (hR : Lossless R) :
    (ps : List (Plan S)) → (vs : Values R.Object (nativeAll ps)) →
      toNativeAll R ps (toShownAll R ps vs) = vs
  | [], _ => rfl
  | p :: ps, vs => Prod.ext (toNative_toShown hR p vs.1) (toNativeAll_toShownAll hR ps vs.2)

end

section Identity

variable {R : Runtime S}

/-- What keeps values and their type also keeps them inside a list or a nullable value. -/
theorem typed_lift {O : Shape → Type} {F : Ty → Ty}
    (lift : ∀ {t u : Ty}, (Value O t → Value O u) → Value O (F t) → Value O (F u))
    (hlift : ∀ (t : Ty) (l : Value O (F t)), lift (fun v : Value O t => v) l = l)
    {t u : Ty} {f : Value O t → Value O u}
    (htype : t = u)
    (hf : ∀ v, (⟨t, v⟩ : Typed O) = ⟨u, f v⟩) (l : Value O (F t)) :
    (⟨F t, l⟩ : Typed O) = ⟨F u, lift f l⟩ := by
  subst htype
  have hid : f = fun v => v := by
    funext v
    exact (eq_of_heq (Sigma.mk.inj (hf v)).2).symm
  rw [hid, hlift]

section Constructors

variable {O : Shape → Type} {t u : Ty} {f : Value O t → Value O u}

theorem typed_array
    (htype : t = u)
    (hf : ∀ v, (⟨t, v⟩ : Typed O) = ⟨u, f v⟩) (l : Value O (.array t)) :
    (⟨.array t, l⟩ : Typed O) = ⟨.array u, List.map f l⟩ :=
  typed_lift (F := .array) (fun f l => List.map f l) (fun _ l => List.map_id l) htype hf l

theorem typed_list
    (htype : t = u)
    (hf : ∀ v, (⟨t, v⟩ : Typed O) = ⟨u, f v⟩) (l : Value O (.list t)) :
    (⟨.list t, l⟩ : Typed O) = ⟨.list u, List.map f l⟩ :=
  typed_lift (F := .list) (fun f l => List.map f l) (fun _ l => List.map_id l) htype hf l

theorem typed_nullable
    (htype : t = u)
    (hf : ∀ v, (⟨t, v⟩ : Typed O) = ⟨u, f v⟩) (l : Value O (.nullable t)) :
    (⟨.nullable t, l⟩ : Typed O) = ⟨.nullable u, Option.map f l⟩ :=
  typed_lift (F := .nullable) (fun f l => Option.map f l) (fun _ _ => Option.map_id') htype hf l

end Constructors

/-- A plan that changes nothing shows every value as itself. -/
theorem toShown_of_isIdentity :
    (p : Plan S) → p.isIdentity = true → ∀ v : Value R.Object p.native,
      (⟨p.native, v⟩ : Typed R.Object) = ⟨p.shown, p.toShown R v⟩
  | .keep _, _, _ => rfl
  | .array p, h, v => typed_array (native_eq_shown (p := p) h) (toShown_of_isIdentity p h) v
  | .nullable p, h, v =>
      typed_nullable (native_eq_shown (p := p) h) (toShown_of_isIdentity p h) v

theorem toNative_of_isIdentity :
    (p : Plan S) → p.isIdentity = true → ∀ v : Value R.Object p.shown,
      (⟨p.shown, v⟩ : Typed R.Object) = ⟨p.native, p.toNative R v⟩
  | .keep _, _, _ => rfl
  | .array p, h, v => typed_array (native_eq_shown (p := p) h).symm (toNative_of_isIdentity p h) v
  | .nullable p, h, v =>
      typed_nullable (native_eq_shown (p := p) h).symm (toNative_of_isIdentity p h) v

/-- A plan that changes nothing converts every value to itself, in either direction. -/
theorem convert_of_isIdentity {d : Direction} {p : Plan S}
    (h : p.isIdentity = true) (v : Value R.Object (p.type d)) :
    (⟨p.type d, v⟩ : Typed R.Object) = ⟨p.type d.flip, p.convert R d v⟩ := by
  cases d with
  | exporting => exact toShown_of_isIdentity p h v
  | importing => exact toNative_of_isIdentity p h v

end Identity

end Plan

end Mapping
end Facade
