import Facade.Proofs.ConversionCode
import Facade.Source.Tree

/-!
# What generated code calls

A method that is called without arguments and a branch of a choice by type name something that has
to be declared elsewhere.  Code is linked when all these names lead somewhere, at every depth.

**Input.**  A table of a session and a conversion that it writes.

**Results.**
* `Table.convert_linked`: a conversion calls methods of the standard library, conversions of the
  session and the value that it converts, and nothing else.
* `Table.exported_parts`: a shown type consists of parts of the native type, of what the built-in
  conversions give, and of wrappers of the session.
-/

namespace Facade
namespace Code

variable {calls : Expr → String → Prop} {branch : Shape × String → Prop}

namespace Expr

/-- Calling the expression without arguments is allowed. -/
def Invocable (calls : Expr → String → Prop) (e : Expr) : Prop :=
  ∀ target safe m, e = .member target safe m → calls target m

/-- Every method that is called without arguments is one of `calls`, every choice consists of
branches of `branch`, and nothing is hidden in source text. -/
inductive Linked (calls : Expr → String → Prop) (branch : Shape × String → Prop) : Expr → Prop
  | name (ident : String) :
      Linked calls branch (.name ident)
  | member {target : Expr} (safe : Bool) (field : String)
      (htarget : Linked calls branch target) :
      Linked calls branch (.member target safe field)
  | call {function : Expr} {args : List Expr}
      (hfunction : Linked calls branch function)
      (hargs : ∀ a ∈ args, Linked calls branch a)
      (hcall : args = [] → Invocable calls function) :
      Linked calls branch (.call function args)
  | named (label : String) {value : Expr}
      (hvalue : Linked calls branch value) :
      Linked calls branch (.named label value)
  | cast {value : Expr} (type : Key) (nullable : Bool)
      (hvalue : Linked calls branch value) :
      Linked calls branch (.cast value type nullable)
  | trailing {function block : Expr}
      (hfunction : Linked calls branch function)
      (hblock : Linked calls branch block) :
      Linked calls branch (.trailing function block)
  | implicit {body : Expr}
      (hbody : Linked calls branch body) :
      Linked calls branch (.implicit body)
  | lambda (params : List Binder) {body : Expr}
      (hbody : Linked calls branch body) :
      Linked calls branch (.lambda params body)
  | typed (ident : String) (args : List Shape) :
      Linked calls branch (.typed ident args)
  | safeCast {value : Expr} (type : String)
      (hvalue : Linked calls branch value) :
      Linked calls branch (.safeCast value type)
  | orElse {value other : Expr}
      (hvalue : Linked calls branch value)
      (hother : Linked calls branch other) :
      Linked calls branch (.orElse value other)
  | dispatch {branches : List (Shape × String)} (unknown : String)
      (hbranches : ∀ b ∈ branches, branch b) :
      Linked calls branch (.dispatch branches unknown)

theorem invocable_name (ident : String) :
    Invocable calls (.name ident) := by
  simp [Invocable]

theorem invocable_typed (ident : String) (args : List Shape) :
    Invocable calls (.typed ident args) := by
  simp [Invocable]

theorem invocable_call (function : Expr) (args : List Expr) :
    Invocable calls (.call function args) := by
  simp [Invocable]

/-- A call on linked code is linked if the method may be called. -/
theorem Linked.send {e : Expr} {m : String} (safe : Bool)
    (he : Linked calls branch e)
    (hm : calls e m) :
    Linked calls branch (e.send safe m) := by
  refine .call (.member safe m he) (List.forall_mem_nil _) ?_
  rintro - target safe' m' h
  obtain ⟨rfl, -, rfl⟩ := Expr.member.inj h
  exact hm

theorem Linked.mapped {e body : Expr} (safe : Bool)
    (he : Linked calls branch e)
    (hbody : Linked calls branch body) :
    Linked calls branch (e.mapped safe body) :=
  .trailing (.member safe "map" he) (.implicit hbody)

end Expr

end Code

namespace Mapping

open Code

/-- The methods of the standard library that conversions call. -/
def libraryMethods : List String :=
  ["toLong", "toDouble", "toLongArray", "toTypedArray", "toList"]

namespace Direction

variable {calls : Expr → String → Prop} {branch : Shape × String → Prop}
variable {e inner : Expr} (d : Direction) (nullable : Bool)

theorem linked_long
    (hlibrary : ∀ x, ∀ m ∈ libraryMethods, calls x m)
    (he : e.Linked calls branch) :
    (d.long e nullable).Linked calls branch := by
  cases d with
  | importing => exact he.send nullable (hlibrary e _ (by decide))
  | exporting => exact he.send nullable (hlibrary e _ (by decide))

theorem linked_longArray
    (hlibrary : ∀ x, ∀ m ∈ libraryMethods, calls x m)
    (he : e.Linked calls branch) :
    (d.longArray e nullable).Linked calls branch := by
  have hitems : (e.mapped nullable (d.long .it false)).Linked calls branch :=
    he.mapped nullable (linked_long d false hlibrary (.name "it"))
  cases d with
  | importing => exact hitems.send nullable (hlibrary _ _ (by decide))
  | exporting => exact hitems.send nullable (hlibrary _ _ (by decide))

theorem linked_array
    (hlibrary : ∀ x, ∀ m ∈ libraryMethods, calls x m)
    (he : e.Linked calls branch)
    (hinner : inner.Linked calls branch) :
    (Direction.array e nullable inner).Linked calls branch := by
  rw [Direction.array]
  split
  · exact he
  · exact (he.mapped nullable hinner).send nullable (hlibrary _ _ (by decide))

theorem linked_list
    (hlibrary : ∀ x, ∀ m ∈ libraryMethods, calls x m)
    (he : e.Linked calls branch)
    (hinner : inner.Linked calls branch) :
    (d.list e nullable inner).Linked calls branch := by
  cases d with
  | importing =>
      simp only [Direction.list]
      split
      · exact he.send nullable (hlibrary _ _ (by decide))
      · exact he.mapped nullable hinner
  | exporting =>
      simp only [Direction.list]
      split
      · exact he.send nullable (hlibrary _ _ (by decide))
      · exact (he.mapped nullable hinner).send nullable (hlibrary _ _ (by decide))

theorem linked_errorOf
    (he : e.Linked calls branch) :
    (errorOf e).Linked calls branch := by
  refine .call (.name _) ?_ (by simp)
  intro a ha
  obtain rfl := List.mem_singleton.1 ha
  exact .named "cause" he

theorem linked_exception (type : Key)
    (he : e.Linked calls branch) :
    (d.exception e nullable type).Linked calls branch := by
  cases d with
  | importing => exact .cast type nullable (.member nullable "cause" he)
  | exporting =>
      cases nullable with
      | false => exact linked_errorOf he
      | true => exact .trailing (.member true "let" he) (.implicit (linked_errorOf (.name "it")))

/-- The code for a wrapped type calls its conversion functions. -/
theorem linked_wrapper {type : Key}
    (hcalls : ∀ x, calls x (Name.importer type.name) ∧ calls x (Name.exporter type.name))
    (he : e.Linked calls branch) :
    (d.wrapper e nullable type).Linked calls branch := by
  cases d with
  | importing => exact he.send nullable (hcalls e).1
  | exporting => exact he.send nullable (hcalls e).2

theorem linked_guarded {lambda : Expr}
    (he : e.Linked calls branch)
    (hlambda : lambda.Linked calls branch) :
    (guarded e nullable lambda).Linked calls branch := by
  cases nullable with
  | false => exact hlambda
  | true => exact .trailing (.member true "let" he) (.lambda _ hlambda)

end Direction

namespace Table

section Linked

variable {exported : List (Shape × String)} {extra : List Shape} {erase : Bool} {T : Table}
variable {calls : Expr → String → Prop} {branch : Shape × String → Prop}

/-- Every conversion of a type keeps code linked. -/
def Links (T : Table) (calls : Expr → String → Prop) (branch : Shape × String → Prop)
    (s : Shape) : Prop :=
  ∀ d e x, T.convert d e s = .ok x → e.Linked calls branch → e.Invocable calls →
    x.Linked calls branch

theorem convertFirst_linked {d : Direction} {collection : Key} {args : List Shape} {x : Expr}
    (hargs : ∀ a ∈ args, T.Links calls branch a)
    (h : T.convertFirst d collection args = .ok x) :
    x.Linked calls branch := by
  cases args with
  | nil => simp [convertFirst] at h
  | cons a rest =>
      rw [convertFirst] at h
      exact hargs a List.mem_cons_self d .it x h (.name "it") (Expr.invocable_name "it")

/-- The code of a call is linked if that of its arguments and its result is. -/
theorem convertCall_linked {d : Direction} {target x : Expr} {args : List Shape}
    (hargs : ∀ a ∈ args, T.Links calls branch a)
    (htarget : target.Linked calls branch)
    (hcall : target.Invocable calls) :
    ∀ names done, (∀ a ∈ done, a.Linked calls branch) →
      T.convertCall d target names done args = .ok x → x.Linked calls branch := by
  induction args with
  | nil =>
      intro names done hdone h
      rw [convertCall] at h
      obtain rfl := Except.ok.inj h
      exact .call htarget hdone fun _ => hcall
  | cons a rest ih =>
      intro names done hdone h
      cases rest with
      | nil =>
          rw [convertCall] at h
          exact hargs a List.mem_cons_self d _ x h (.call htarget hdone fun _ => hcall)
            (Expr.invocable_call target done)
      | cons b rest =>
          rw [convertCall] at h
          obtain ⟨arg, harg, h⟩ := Outcome.bind_eq_ok_iff.1 h
          refine ih (fun c hc => hargs c (List.mem_cons_of_mem _ hc)) names.tail
            (done ++ [arg]) ?_ h
          have hlinked := hargs a List.mem_cons_self d.flip _ arg harg (.name _)
            (Expr.invocable_name _)
          intro c hc
          rcases List.mem_append.1 hc with hc | hc
          · exact hdone c hc
          · rwa [List.mem_singleton.1 hc]

/-- Conversion code only calls methods of the library and conversion functions of the session, by
induction over the type. -/
theorem convert_linked
    (hT : Table.ofSession exported extra erase = .ok T)
    (hlibrary : ∀ x, ∀ m ∈ libraryMethods, calls x m)
    (hexported : ∀ native name, (native, name) ∈ exported →
      ∀ x, calls x (Name.importer name) ∧ calls x (Name.exporter name))
    (s : Shape) :
    T.Links calls branch s := by
  induction s using Shape.induction with
  | step name package args nullable ih =>
      intro d e x h he hcall
      rw [convert_eq] at h
      cases hc : T.conversion? ⟨name, package, args, nullable⟩ with
      | error o =>
          simp [hc] at h
      | ok c =>
          rw [hc] at h
          cases lookup_ofSession hT hc with
          | identity hkey =>
              obtain rfl := Except.ok.inj h
              exact he
          | long hkey =>
              obtain rfl := Except.ok.inj h
              exact Direction.linked_long d nullable hlibrary he
          | longArray hkey =>
              obtain rfl := Except.ok.inj h
              exact Direction.linked_longArray d nullable hlibrary he
          | array hkey =>
              obtain ⟨inner, hinner, h⟩ := Outcome.bind_eq_ok_iff.1 h
              obtain rfl := Except.ok.inj h
              exact Direction.linked_array nullable hlibrary he (convertFirst_linked ih hinner)
          | list hkey =>
              obtain ⟨inner, hinner, h⟩ := Outcome.bind_eq_ok_iff.1 h
              obtain rfl := Except.ok.inj h
              exact Direction.linked_list d nullable hlibrary he (convertFirst_linked ih hinner)
          | exception hkey hnew =>
              obtain rfl := Except.ok.inj h
              exact Direction.linked_exception d nullable _ he
          | declared hmem hargs hkey hnew =>
              obtain rfl := Except.ok.inj h
              exact Direction.linked_wrapper d nullable (hexported _ _ hmem) he
          | function hfunction hread =>
              obtain ⟨body, hbody, h⟩ := Outcome.bind_eq_ok_iff.1 h
              obtain ⟨types, -, h⟩ := Outcome.bind_eq_ok_iff.1 h
              obtain rfl := Except.ok.inj h
              refine Direction.linked_guarded nullable he (.lambda _ ?_)
              have htarget : (Direction.callee e nullable).Linked calls branch ∧
                  (Direction.callee e nullable).Invocable calls := by
                cases nullable with
                | false => exact ⟨he, hcall⟩
                | true => exact ⟨.name _, Expr.invocable_name _⟩
              exact convertCall_linked ih htarget.1 htarget.2 _ [] (List.forall_mem_nil _) hbody
          | instantiated hmem hkey hargs hnew hfunction =>
              obtain rfl := Except.ok.inj h
              exact Direction.linked_wrapper d nullable (hexported _ _ hmem) he
          | unknown hnew hfunction =>
              obtain ⟨_, -, h⟩ := Outcome.bind_eq_ok_iff.1 h
              obtain rfl := Except.ok.inj h
              exact he

end Linked

section Shown

variable {exported : List (Shape × String)} {extra : List Shape} {erase : Bool} {T : Table}

/-- The types that the built-in conversions show. -/
def shownKeys : List Key :=
  [Shape.double.key, Shape.array.key, Shape.error.key]

/-- Where a part of a shown type comes from. -/
inductive ShownPart (exported : List (Shape × String)) (erase : Bool) (s u : Shape) : Prop
  | kept (part : Shape)
      (hpart : part ∈ s.parts)
      (hkey : u.key = part.key)
  | builtin
      (hkey : u.key ∈ shownKeys)
  | wrapper (native : Shape) (name : String)
      (hmem : (native, name) ∈ exported)
      (hkey : u.key = wrapperKey native name erase)

theorem ShownPart.of_mem_args {s a u : Shape}
    (h : ShownPart exported erase a u)
    (ha : a ∈ s.args) :
    ShownPart exported erase s u := by
  cases h with
  | kept part hpart hkey => exact .kept part (parts_subset_of_mem_args ha hpart) hkey
  | builtin hkey => exact .builtin hkey
  | wrapper native name hmem hkey => exact .wrapper native name hmem hkey

/-- Every part of what a type is shown as has an origin in the type or in the session. -/
def ShowsParts (T : Table) (exported : List (Shape × String)) (erase : Bool) (s : Shape) : Prop :=
  ∀ s', T.exported s = .ok s' → ∀ u ∈ s'.parts, ShownPart exported erase s u

/-- What is shown for a collection has the parts shown for its element. -/
theorem exportedFirst_parts {s s' : Shape} {collection : Key}
    (hargs : ∀ a ∈ s.args, T.ShowsParts exported erase a)
    (h : T.exportedFirst collection s.args = .ok s') :
    ∀ u ∈ s'.parts, ShownPart exported erase s u := by
  intro u hu
  cases heq : s.args with
  | nil =>
      simp [heq, exportedFirst] at h
  | cons a rest =>
      rw [heq, exportedFirst] at h
      have ha : a ∈ s.args := by simp [heq]
      exact (hargs a ha s' h u hu).of_mem_args ha

theorem exportedAll_parts {s : Shape} {args' : List Shape}
    (hargs : ∀ a ∈ s.args, T.ShowsParts exported erase a)
    (h : T.exportedAll s.args = .ok args') :
    ∀ a' ∈ args', ∀ u ∈ a'.parts, ShownPart exported erase s u := by
  rw [exportedAll_eq_mapM] at h
  intro a' ha' u hu
  obtain ⟨a, ha, hshown⟩ := Outcome.exists_of_mem_mapM h ha'
  exact (hargs a ha a' hshown u hu).of_mem_args ha

theorem parts_arrayOf_cases {a u : Shape} {nullable : Bool}
    (hu : u ∈ (Shape.arrayOf a nullable).parts) :
    u.key = Shape.array.key ∨ u ∈ a.parts := by
  rw [parts_eq, List.mem_cons] at hu
  rcases hu with rfl | hu
  · exact .inl rfl
  · exact .inr (by simpa [Shape.arrayOf] using hu)

/-- Every part of a type that is shown is built in, a part of the type, or a wrapper of one of its
parts. -/
theorem exported_parts
    (hT : Table.ofSession exported extra erase = .ok T) (s : Shape) :
    T.ShowsParts exported erase s := by
  have hsingle : ∀ {t u : Shape}, t.args = [] → u ∈ t.parts → u = t := by
    intro t u ht hu
    simpa [parts_eq, ht] using hu
  induction s using Shape.induction with
  | step name package args nullable ih =>
      intro s' h u hu
      rw [Table.exported] at h
      cases hc : T.conversion? ⟨name, package, args, nullable⟩ with
      | error o =>
          simp [hc] at h
      | ok c =>
          rw [hc] at h
          cases lookup_ofSession hT hc with
          | identity hkey =>
              obtain rfl := Except.ok.inj h
              exact .kept u hu rfl
          | long hkey =>
              obtain rfl := Except.ok.inj h
              obtain rfl := hsingle rfl hu
              exact .builtin (by simp [shownKeys])
          | longArray hkey =>
              obtain rfl := Except.ok.inj h
              rcases parts_arrayOf_cases hu with hkey | hu
              · exact .builtin (by simp [shownKeys, hkey])
              · obtain rfl := hsingle rfl hu
                exact .builtin (by simp [shownKeys])
          | array hkey | list hkey =>
              obtain ⟨a', ha', h⟩ := Outcome.bind_eq_ok_iff.1 h
              obtain rfl := Except.ok.inj h
              rcases parts_arrayOf_cases hu with hkey | hu
              · exact .builtin (by simp [shownKeys, hkey])
              · exact exportedFirst_parts (s := ⟨name, package, args, nullable⟩) ih ha' u hu
          | exception hkey hnew =>
              obtain rfl := Except.ok.inj h
              obtain rfl := hsingle rfl hu
              exact .builtin (by simp [shownKeys])
          | declared hmem hargs hkey hnew =>
              obtain rfl := Except.ok.inj h
              obtain rfl := hsingle rfl hu
              exact .wrapper _ _ hmem rfl
          | function hfunction hread =>
              obtain ⟨args', hargs', h⟩ := Outcome.bind_eq_ok_iff.1 h
              obtain rfl := Except.ok.inj h
              refine forall_mem_parts (.kept _ (Shape.self_mem_parts _) rfl) ?_ u hu
              exact exportedAll_parts (s := ⟨name, package, args, nullable⟩) ih hargs'
          | instantiated hmem hkey hargs hnew hfunction =>
              obtain rfl := Except.ok.inj h
              obtain rfl := hsingle rfl hu
              exact .wrapper _ _ hmem rfl
          | unknown hnew hfunction =>
              obtain ⟨args', -, h⟩ := Outcome.bind_eq_ok_iff.1 h
              split at h
              · obtain rfl := Except.ok.inj h
                exact .kept u hu rfl
              · simp at h

end Shown

end Table

end Mapping
end Facade
