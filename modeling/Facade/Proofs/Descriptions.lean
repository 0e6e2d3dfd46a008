import Facade.Compiled.Describe
import Facade.Proofs.Outcome

/-!
# When a class is described

The virtual machine is asked about a class piece by piece, and any answer may be an exception: a
class that a signature mentions may be missing, or a signature may be broken.  The description of a
class then ends with that exception.

**Input.**  A compiled class.

**Algorithm.**  The answers are read in a fixed order.  A type is whole if all its parts are told
and none of them is an array of `void`, which has no type of its own.

**Results.**
* `exists_shape`: every whole type has a shape.
* `describeMembers_eq_ok` and `describe_eq_ok`: what a description takes over from the answers.
* `exists_describeMembers` and `exists_instanceSpecs`: a class that answers every question with
  whole types can be read.
* `describe_ends`: a class is described, refused, or has an answer that cannot be read.
-/

namespace Facade
namespace Compiled

namespace TypeRef

/-- Whether a type is `void`. -/
def isVoid : TypeRef → Bool
  | named name => name == "void"
  | _ => false

mutual

/-- Whether all parts of a type are told, and none of them is an array of `void`. -/
def isWhole : TypeRef → Bool
  | named _ => true
  | parameterized _ args => allWhole args
  | typeVar _ => true
  | wildcard lower upper => allWhole lower && allWhole upper
  | genericArray component => component.isWhole
  | array component => !component.isVoid && component.isWhole
  | untold _ => false

/-- Whether all of some types are whole. -/
def allWhole : List TypeRef → Bool
  | [] => true
  | t :: rest => t.isWhole && allWhole rest

end

/-- Every primitive type but `void` has a type of arrays. -/
theorem exists_primitiveArray {name : String}
    (hname : name ∈ primitiveNames)
    (hvoid : name ≠ "void") :
    ∃ s, primitiveArray name = .ok s := by
  have hknown : ∀ n ∈ primitiveNames, n ≠ "void" → (Shape.primitiveArrays.get? n).isSome := by
    decide
  obtain ⟨shown, hshown⟩ := Option.isSome_iff_exists.1 (hknown name hname hvoid)
  exact ⟨.kotlin shown, by rw [primitiveArray, hshown]⟩

/-- The array of anything but a plain class has a shape if its component has one. -/
theorem shape_array {component : TypeRef} {s : Shape}
    (hcomponent : ∀ name, component ≠ named name)
    (hs : component.shape = .ok s) :
    (array component).shape = .ok (.arrayOf s) := by
  rw [shape, hs]
  · rfl
  · exact hcomponent

mutual

/-- Every whole type has a shape. -/
theorem exists_shape : (t : TypeRef) → t.isWhole = true → ∃ s, t.shape = .ok s
  | named name, _ => ⟨_, rfl⟩
  | parameterized className args, h => by
      obtain ⟨ss, hss⟩ := exists_shapes args h
      exact ⟨_, by rw [shape, hss]; rfl⟩
  | typeVar name, _ => ⟨_, rfl⟩
  | wildcard lower upper, h => by
      rw [isWhole, Bool.and_eq_true] at h
      obtain ⟨first, hfirst⟩ := exists_firstShape lower h.1
      obtain ⟨second, hsecond⟩ := exists_firstShape upper h.2
      cases first with
      | some s => exact ⟨s, by rw [shape, hfirst]; rfl⟩
      | none => exact ⟨_, by rw [shape, hfirst, hsecond]; rfl⟩
  | genericArray component, h => by
      obtain ⟨s, hs⟩ := exists_shape component h
      exact ⟨_, by rw [shape, hs]; rfl⟩
  | array component, h => by
      rw [isWhole, Bool.and_eq_true] at h
      obtain ⟨s, hs⟩ := exists_shape component h.2
      cases component with
      | named name =>
          rw [shape]
          split
          · next hprimitive => exact exists_primitiveArray hprimitive (by simpa [isVoid] using h.1)
          · exact ⟨_, rfl⟩
      | _ => exact ⟨_, shape_array (by simp) hs⟩
  | untold cause, h => by simp [isWhole] at h

theorem exists_shapes : (ts : List TypeRef) → allWhole ts = true → ∃ ss, shapes ts = .ok ss
  | [], _ => ⟨[], rfl⟩
  | t :: rest, h => by
      rw [allWhole, Bool.and_eq_true] at h
      obtain ⟨s, hs⟩ := exists_shape t h.1
      obtain ⟨ss, hss⟩ := exists_shapes rest h.2
      exact ⟨s :: ss, by rw [shapes, hs, hss]; rfl⟩

theorem exists_firstShape :
    (ts : List TypeRef) → allWhole ts = true → ∃ s, firstShape ts = .ok s
  | [], _ => ⟨none, rfl⟩
  | t :: rest, h => by
      rw [allWhole, Bool.and_eq_true] at h
      obtain ⟨s, hs⟩ := exists_shape t h.1
      exact ⟨some s, by rw [firstShape, hs]; rfl⟩

end

/-- A whole type has a shape as the type of a member. -/
theorem exists_memberShape {t : TypeRef}
    (h : t.isWhole = true) :
    ∃ s, t.memberShape = .ok s := by
  cases t with
  | named name => exact ⟨_, rfl⟩
  | _ => exact exists_shape _ h

end TypeRef

theorem exists_parameters {params : List Param}
    (h : ∀ p ∈ params, p.type.isWhole = true) :
    ∃ ps, parameters params = .ok ps := by
  refine Outcome.exists_mapM fun p hp => ?_
  obtain ⟨type, htype⟩ := TypeRef.exists_memberShape (h p hp)
  exact Outcome.exists_bind htype ⟨_, rfl⟩

/-- The machine answers a question, and the answer is as it should be. -/
def Answer.Tells {α : Type} (answer : Answer α) (P : α → Prop) : Prop :=
  ∃ a, answer = .ok a ∧ P a

/-- The types in the signature of a method are whole. -/
structure Method.IsWhole (m : Method) : Prop where
  returns : m.returns.isWhole = true
  params : ∀ p ∈ m.params, p.type.isWhole = true

/-- The machine answers every question about a class, with whole types. -/
structure Class.Answers (c : Class) : Prop where
  simpleName : c.model.simpleName.Tells fun _ => True
  fields : c.model.fields.Tells fun _ => True
  typeParams : c.model.typeParams.Tells fun _ => True
  permitted : c.model.permitted.Tells fun _ => True
  methods : c.model.methods.Tells fun methods => ∀ m ∈ methods, m.IsWhole
  constructors : c.model.constructors.Tells fun constructors =>
    ∀ k ∈ constructors, ∀ p ∈ k.params, p.type.isWhole = true
  superclass : c.model.declaredSuperclass.Tells fun superclass =>
    ∀ s ∈ superclass, s.type.isWhole = true
  interfaces : c.model.declaredInterfaces.Tells fun interfaces =>
    ∀ s ∈ interfaces, s.type.isWhole = true
  annotations : c.model.annotations.Tells fun annotations =>
    ∀ a ∈ annotations, a.instances.Tells fun instances =>
      ∀ e ∈ instances, TypeRef.allWhole e.args = true

/-- Methods whose types are whole have members. -/
theorem Members.exists_ofMethods {methods : List Method} (c : Class)
    (h : ∀ m ∈ methods, m.IsWhole) :
    ∃ members, ofMethods c methods = .ok members := by
  refine Outcome.exists_foldlM (fun ms m hm => ?_) _
  have hmethod : m ∈ methods := by
    rw [Method.exportable, (List.mergeSort_perm _ _).mem_iff] at hm
    exact List.mem_of_mem_filter hm
  obtain ⟨type, htype⟩ := TypeRef.exists_memberShape (h m hmethod).returns
  obtain ⟨params, hparams⟩ := exists_parameters (h m hmethod).params
  rw [add]
  split
  · exact ⟨_, rfl⟩
  · split
    · exact Outcome.exists_bind htype ⟨_, rfl⟩
    · split
      · exact ⟨_, rfl⟩
      · exact Outcome.exists_bind htype (Outcome.exists_bind hparams ⟨_, rfl⟩)

/-- The first constructor with the most parameters is one of the constructors. -/
theorem Constructor.mem_of_widest? {ks : List Constructor} {k : Constructor}
    (h : widest? ks = some k) :
    k ∈ ks := by
  induction ks generalizing k with
  | nil => simp [widest?] at h
  | cons first rest ih =>
      rw [widest?] at h
      split at h
      · next other hother =>
          split at h
          · obtain rfl := Option.some.inj h
            exact List.mem_cons_of_mem _ (ih hother)
          · obtain rfl := Option.some.inj h
            exact List.mem_cons_self
      · obtain rfl := Option.some.inj h
        exact List.mem_cons_self

namespace Class

variable {c : Class} {header : Header} {origin : Option Location} {d : Declaration}

section Answered

/-- A class that answers has members. -/
theorem exists_members
    (h : c.Answers) :
    ∃ members, Members.ofClass c = .ok members := by
  obtain ⟨methods, hmethods, hwhole⟩ := h.methods
  exact Outcome.exists_bind hmethods (Members.exists_ofMethods c hwhole)

theorem exists_classSupers
    (h : c.Answers) :
    ∃ supers, c.classSupers = .ok supers := by
  obtain ⟨superclass, hsuperclass, hwhole⟩ := h.superclass
  refine Outcome.exists_bind hsuperclass ?_
  cases superclass with
  | none => exact ⟨_, rfl⟩
  | some s =>
      obtain ⟨shape, hshape⟩ := TypeRef.exists_shape s.type (hwhole s rfl)
      dsimp only
      split
      · exact ⟨_, rfl⟩
      · exact Outcome.exists_bind hshape ⟨_, rfl⟩

theorem exists_interfaceSupers
    (h : c.Answers) :
    ∃ supers, c.interfaceSupers = .ok supers := by
  obtain ⟨interfaces, hinterfaces, hwhole⟩ := h.interfaces
  refine Outcome.exists_bind hinterfaces (Outcome.exists_mapM fun s hs => ?_)
  obtain ⟨shape, hshape⟩ := TypeRef.exists_shape s.type (hwhole s (List.mem_of_mem_filter hs))
  exact Outcome.exists_bind hshape ⟨_, rfl⟩

/-- A class that answers has supertypes. -/
theorem exists_supers
    (h : c.Answers) :
    ∃ supers, c.supers = .ok supers := by
  obtain ⟨superclass, hsuperclass⟩ := exists_classSupers h
  obtain ⟨interfaces, hinterfaces⟩ := exists_interfaceSupers h
  exact Outcome.exists_bind hsuperclass (Outcome.exists_bind hinterfaces ⟨_, rfl⟩)

theorem exists_constructorParams
    (h : c.Answers) :
    ∃ params, c.constructorParams = .ok params := by
  obtain ⟨constructors, hconstructors, hwhole⟩ := h.constructors
  refine Outcome.exists_bind hconstructors ?_
  split
  · exact ⟨_, rfl⟩
  · next k hk =>
      exact exists_parameters
        (hwhole k (List.mem_of_mem_filter (Constructor.mem_of_widest? hk)))

/-- A class that answers every question has members, supertypes and a constructor. -/
theorem exists_describeMembers (header : Header)
    (h : c.Answers) :
    ∃ d, c.describeMembers header = .ok d := by
  obtain ⟨typeParams, htypeParams, -⟩ := h.typeParams
  obtain ⟨permitted, hpermitted, -⟩ := h.permitted
  obtain ⟨members, hmembers⟩ := exists_members h
  obtain ⟨supers, hsupers⟩ := exists_supers h
  obtain ⟨params, hparams⟩ := exists_constructorParams h
  have hsubclasses : c.subclasses = .ok _ := Outcome.bind_eq_ok_iff.2 ⟨permitted, hpermitted, rfl⟩
  refine Outcome.exists_bind htypeParams (Outcome.exists_bind hmembers ?_)
  dsimp only
  split
  · exact Outcome.exists_bind hsupers ⟨_, rfl⟩
  · split
    · exact Outcome.exists_bind hparams (Outcome.exists_bind hsubclasses ⟨_, rfl⟩)
    · exact Outcome.exists_bind hsupers (Outcome.exists_bind hparams ⟨_, rfl⟩)

/-- A class that answers tells its instantiations. -/
theorem exists_instanceSpecs (marker : Option String)
    (h : c.Answers) :
    ∃ specs, c.instanceSpecs marker = .ok specs := by
  obtain ⟨annotations, hannotations, hwhole⟩ := h.annotations
  have hspecs : ∀ a ∈ annotations, ∃ specs, a.specs = .ok specs := by
    intro a ha
    obtain ⟨instances, hinstances, hargs⟩ := hwhole a ha
    rw [ Annotation.specs, hinstances]
    refine Outcome.exists_mapM fun e he => ?_
    obtain ⟨args, hargs⟩ := TypeRef.exists_shapes e.args (hargs e he)
    exact Outcome.exists_bind hargs ⟨_, rfl⟩
  obtain ⟨specs, hall⟩ := @Outcome.exists_mapM _ _ _ Annotation.specs
    (annotations.filter fun a => marker = some a.type)
    fun a ha => hspecs a (List.mem_of_mem_filter ha)
  exact Outcome.exists_bind hannotations (Outcome.exists_bind hall ⟨_, rfl⟩)

end Answered

/-- What the description of a class that is no enumeration takes over from the answers. -/
theorem describeMembers_eq_ok
    (h : c.describeMembers header = .ok d) :
    ∃ typeParams members, c.model.typeParams = .ok typeParams ∧ Members.ofClass c = .ok members ∧
      ((∃ supers, c.supers = .ok supers ∧
          d = .interface
            { header with
              typeParams := typeParams, supers := supers, properties := members.properties,
              functions := members.functions }) ∨
        (∃ params subclasses, c.constructorParams = .ok params ∧ c.subclasses = .ok subclasses ∧
          d = .sealed
            { header with
              constructorParams := params, properties := members.properties,
              functions := members.functions, subclasses := subclasses }) ∨
        ∃ supers params, c.supers = .ok supers ∧ c.constructorParams = .ok params ∧
          d = .cls
            { header with
              typeParams := typeParams, supers := supers, properties := members.properties,
              functions := members.functions, constructorParams := params }) := by
  obtain ⟨typeParams, htypeParams, h⟩ := Outcome.bind_eq_ok_iff.1 h
  obtain ⟨members, hmembers, h⟩ := Outcome.bind_eq_ok_iff.1 h
  refine ⟨typeParams, members, htypeParams, hmembers, ?_⟩
  dsimp only at h
  split at h
  · obtain ⟨supers, hsupers, h⟩ := Outcome.bind_eq_ok_iff.1 h
    exact .inl ⟨supers, hsupers, (Except.ok.inj h).symm⟩
  · split at h
    · obtain ⟨params, hparams, h⟩ := Outcome.bind_eq_ok_iff.1 h
      obtain ⟨subclasses, hsubclasses, h⟩ := Outcome.bind_eq_ok_iff.1 h
      exact .inr (.inl ⟨params, subclasses, hparams, hsubclasses, (Except.ok.inj h).symm⟩)
    · obtain ⟨supers, hsupers, h⟩ := Outcome.bind_eq_ok_iff.1 h
      obtain ⟨params, hparams, h⟩ := Outcome.bind_eq_ok_iff.1 h
      exact .inr (.inr ⟨supers, params, hsupers, hparams, (Except.ok.inj h).symm⟩)

/-- A class that is described has names, and is an enumeration or has members. -/
theorem describe_eq_ok
    (h : c.describe origin = .ok d) :
    ∃ names, c.names = .ok names ∧
      ((∃ entries, d = .enumeration
          { package := names.package, simpleName := names.simpleName, origin := origin,
            entries := entries }) ∨
        c.describeMembers ⟨names.package, names.simpleName, origin⟩ = .ok d) := by
  obtain ⟨names, hnames, h⟩ := Outcome.bind_eq_ok_iff.1 h
  refine ⟨names, Outcome.mapError_eq_ok_iff.1 hnames, ?_⟩
  dsimp only at h
  split at h
  · simp at h
  · obtain ⟨isObject, -, h⟩ := Outcome.bind_eq_ok_iff.1 h
    split at h
    · simp at h
    · split at h
      · obtain ⟨fields, -, h⟩ := Outcome.bind_eq_ok_iff.1 (Outcome.mapError_eq_ok_iff.1 h)
        exact .inl ⟨_, (Except.ok.inj h).symm⟩
      · exact .inr (Outcome.mapError_eq_ok_iff.1 h)

section Ends

variable {α β : Type}

/-- How a step of a description ends: it succeeds, the class is refused, or an answer cannot be
read, and then not every question is answered. -/
def Ends (c : Class) (x : Except ClassError α) : Prop :=
  (∃ a, x = .ok a) ∨ (∃ r, x = .error (.refused r)) ∨
    (∃ e, x = .error (.unreadable e)) ∧ ¬ c.Answers

/-- Reading an answer ends well or with what the machine raised. -/
theorem ends_read {x : Answer α}
    (h : c.Answers → ∃ a, x = .ok a) :
    c.Ends (x.mapError .unreadable) := by
  cases x with
  | error e => exact .inr (.inr ⟨⟨e, rfl⟩, fun hanswers => by simpa using h hanswers⟩)
  | ok a => exact .inl ⟨a, rfl⟩

/-- Two steps end well if each of them does. -/
theorem Ends.bind {x : Except ClassError α} {next : α → Except ClassError β}
    (h : c.Ends x)
    (hnext : ∀ a, c.Ends (next a)) :
    c.Ends (x >>= next) := by
  rcases h with ⟨a, rfl⟩ | ⟨r, rfl⟩ | ⟨⟨e, rfl⟩, hsilent⟩
  · exact hnext a
  · exact .inr (.inl ⟨r, rfl⟩)
  · exact .inr (.inr ⟨⟨e, rfl⟩, hsilent⟩)

/-- A class is described, refused, or an answer about it cannot be read, which cannot happen if
every question is answered. -/
theorem describe_ends (c : Class) (origin : Option Location) :
    c.Ends (c.describe origin) := by
  have hnames : c.Answers → ∃ names, c.names = .ok names := fun h => by
    obtain ⟨simpleName, hsimpleName, -⟩ := h.simpleName
    exact Outcome.exists_bind hsimpleName ⟨_, rfl⟩
  have hobject : c.Answers → ∃ isObject, c.isObject = .ok isObject := fun h => by
    obtain ⟨fields, hfields, -⟩ := h.fields
    exact Outcome.exists_bind hfields ⟨_, rfl⟩
  have hentries : ∀ header, c.Answers → ∃ d, c.describeEntries header = .ok d := fun header h => by
    obtain ⟨fields, hfields, -⟩ := h.fields
    exact Outcome.exists_bind hfields ⟨_, rfl⟩
  refine (ends_read hnames).bind fun names => ?_
  dsimp only
  split
  · exact .inr (.inl ⟨_, rfl⟩)
  · refine (ends_read hobject).bind fun isObject => ?_
    split
    · exact .inr (.inl ⟨_, rfl⟩)
    · split
      · exact ends_read (hentries _)
      · exact ends_read (exists_describeMembers _)

end Ends

end Class

end Compiled
end Facade
