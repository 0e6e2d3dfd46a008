import Facade.Proofs.Routing
import Mathlib.Data.List.Induction

/-!
# Wrappers override the members they inherit

Abstract members and the members that forward to a delegate are built by different functions, and
for a sealed class even in different files.  Both read the same descriptions, so an adapter
overrides the members of its interface one by one, and the wrapper of a class overrides those of the
sealed class that it extends.

**Input.**  A session that has started.

**Results.**
* `wrapProperty_overrides` and `wrapFunction_overrides`: a forwarding member overrides the abstract
  member of the same description.
* `superclass_of_getLast?`: a wrapper extends the wrapper of the last class among the supertypes.
* `shown_of_first`: a sealed class is shown as its own wrapper when no request before it gives its
  type another name.
* `wrappers_override_inherited_members`: the two together, for all files of the session.
-/

namespace Facade

open Wrapper Source Mapping

namespace Source

/-- Whether a property has neither a value nor accessors. -/
def PropertyDef.isAbstract (p : PropertyDef) : Bool :=
  p.initializer.isNone && p.getter.isNone && p.setter.isNone

/-- A property with accessors that overrides an abstract one. -/
structure PropertyDef.Overrides (p inherited : PropertyDef) : Prop where
  inherited_isAbstract : inherited.isAbstract = true
  modifiers : p.modifiers = ["override"]
  getter : p.getter.isSome = true
  setter : p.setter.isSome = p.isMutable
  name : p.name = inherited.name
  type : p.type = inherited.type
  isMutable : p.isMutable = inherited.isMutable

/-- A function with a body that overrides an abstract one. -/
structure FunctionDef.Overrides (f inherited : FunctionDef) : Prop where
  inherited_isAbstract : inherited.isAbstract = true
  modifiers : f.modifiers = ["override"]
  isAbstract : f.isAbstract = false
  name : f.name = inherited.name
  receiver : f.receiver = inherited.receiver
  params : f.params = inherited.params
  result : f.result = inherited.result

end Source

section Members

variable {ctx : Context} {delegate : String} {modifiers : List String}

theorem abstractProperty_eq_ok {p : Property} {p' : PropertyDef}
    (h : abstractProperty ctx modifiers p = .ok p') :
    ∃ type, ctx.shown p.name p.type = .ok type ∧
      p' = { name := Name.safe p.name, type, modifiers, isMutable := p.isMutable } := by
  obtain ⟨type, htype, h⟩ := Outcome.bind_eq_ok_iff.1 h
  exact ⟨type, htype, (Except.ok.inj h).symm⟩

/-- The description of a property decides on its signature, whether it overrides or not. -/
theorem wrapProperty_overrides {p : Property} {isOverride : Bool} {own inherited : PropertyDef}
    (hinherited : abstractProperty ctx modifiers p = .ok inherited)
    (hown : wrapProperty ctx .exporting delegate ["override"] { p with isOverride } = .ok own) :
    own.Overrides inherited := by
  obtain ⟨type, hshown, rfl⟩ := abstractProperty_eq_ok hinherited
  obtain ⟨setter, type', getter, hsetter, htype, -, rfl⟩ := wrapProperty_eq_ok hown
  refine ⟨rfl, rfl, rfl, ?_, rfl, Except.ok.inj (htype.symm.trans hshown), rfl⟩
  rcases hsetter with ⟨hmutable, value, -, rfl⟩ | ⟨hmutable, rfl⟩
  · exact hmutable.symm
  · exact hmutable.symm

/-- The result of a function as it is declared: none for the unit type. -/
def shownResult (ctx : Context) (f : Function) : Except Failure (Option Shape) :=
  if isUnit f.result then .ok none else (ctx.shown f.name f.result).map some

/-- What makes up a function without a body. -/
theorem abstractFunction_eq_ok {f : Function} {f' : FunctionDef}
    (h : abstractFunction ctx modifiers f = .ok f') :
    ∃ params result, f.params.mapM (wrapParameter ctx .exporting f.name) = .ok params ∧
      shownResult ctx f = .ok result ∧
      f' = { name := Name.safe f.name, params, result, modifiers } := by
  obtain ⟨params, hparams, h⟩ := Outcome.bind_eq_ok_iff.1 h
  dsimp only at h
  rw [shownResult]
  split at h
  · next hunit =>
      obtain ⟨result, hresult, h⟩ := Outcome.bind_eq_ok_iff.1 h
      exact ⟨params, result, hparams, (if_pos hunit).trans hresult, (Except.ok.inj h).symm⟩
  · next hunit =>
      obtain ⟨result, hresult, h⟩ := Outcome.bind_eq_ok_iff.1 h
      exact ⟨params, result, hparams, (if_neg hunit).trans hresult, (Except.ok.inj h).symm⟩

/-- A function that is forwarded overrides the one without a body. -/
theorem wrapFunction_overrides {f : Function} {isOverride : Bool} {own inherited : FunctionDef}
    (hinherited : abstractFunction ctx modifiers f = .ok inherited)
    (hown : wrapFunction ctx .exporting delegate ["override"] { f with isOverride } = .ok own) :
    own.Overrides inherited := by
  obtain ⟨params, result, hshown, hresult, rfl⟩ := abstractFunction_eq_ok hinherited
  obtain ⟨params', args, hparams, -, hresult'⟩ := wrapFunction_eq_ok hown
  obtain rfl : params' = params := Except.ok.inj (hparams.symm.trans hshown)
  rcases hresult' with ⟨hunit, rfl⟩ | ⟨hunit, converted, type, -, htype, rfl⟩
  · rw [shownResult, if_pos hunit] at hresult
    exact ⟨rfl, rfl, rfl, rfl, rfl, rfl, Except.ok.inj hresult⟩
  · have htype : ctx.shown f.name f.result = .ok type := htype
    rw [shownResult, hunit, htype] at hresult
    exact ⟨rfl, rfl, rfl, rfl, rfl, rfl, Except.ok.inj hresult⟩

end Members

section Interfaces

variable {ctx : Context} {i : InterfaceDecl}

theorem exportedAdapter_ne (name : String) :
    name ≠ exportedAdapter name := by
  intro h
  have hlength := congrArg String.length h
  rw [exportedAdapter, String.length_append] at hlength
  have hpositive : 0 < "Exported".length := by decide
  omega

/-- The file of an interface declares it with an adapter that implements it: the adapter overrides
the members of the interface, which are all abstract, position by position. -/
structure Implemented (F : File) : Prop where
  types : ∃ shown adapter, F.type? F.name = some shown ∧
    F.type? (exportedAdapter F.name) = some adapter ∧
    adapter.interfaces = [{ name := F.name, package := F.package }] ∧
    List.Forall₂ PropertyDef.Overrides adapter.properties shown.properties ∧
    List.Forall₂ FunctionDef.Overrides adapter.functions shown.functions

/-- The outward adapter of an interface implements all its members. -/
theorem implemented_of_ofInterface {F : File}
    (h : ofInterface ctx i = .ok F) :
    Implemented F := by
  obtain ⟨-, shown, outward, inward, hshown, houtward, -, rfl⟩ := ofInterface_eq_ok h
  obtain ⟨interfaces, properties, functions, -, hinherited, hinherited', rfl⟩ :=
    shownInterface_eq_ok hshown
  obtain ⟨forwarded, forwarded', hown, hown', rfl⟩ := adapter_eq_ok houtward
  have hne := exportedAdapter_ne i.exportedName
  refine ⟨_, _, by simp [File.type?, File.types, fileOf]; rfl,
    by simp [File.type?, File.types, fileOf, hne]; rfl, rfl, ?_, ?_⟩
  · exact Outcome.forall₂_of_common hown hinherited fun p own inherited hown hinherited =>
      wrapProperty_overrides hinherited hown
  · exact Outcome.forall₂_of_common hown' hinherited' fun f own inherited hown hinherited =>
      wrapFunction_overrides hinherited hown

end Interfaces

section Superclasses

variable {ctx : Context}

/-- A class supertype replaces the superclass found so far. -/
theorem superclass_of_add {d : Template} {a a' : Ancestry} {s : Supertype}
    (h : a.add ctx d s = .ok a') :
    ∃ shape, ctx.shown s.type.name s.type = .ok shape ∧
      a'.superclass = if s.isClass then some shape else a.superclass := by
  obtain ⟨shape, hshape, h⟩ := Outcome.bind_eq_ok_iff.1 h
  refine ⟨shape, hshape, ?_⟩
  split at h
  · next hinterface =>
      obtain rfl := Except.ok.inj h
      rw [if_neg (by simpa using hinterface)]
  · next hclass =>
      split at h
      · simp at h
      · obtain rfl := Except.ok.inj h
        exact (if_pos (by simpa using hclass)).symm

/-- The wrapper extends the wrapper of the last class among the supertypes. -/
theorem superclass_of_getLast? {d : Template} {supers : List Supertype} {s : Supertype}
    {shape : Shape} {a : Ancestry}
    (hlast : (supers.filter Supertype.isClass).getLast? = some s)
    (hshape : ctx.shown s.type.name s.type = .ok shape)
    (h : supers.foldlM (Ancestry.add ctx d) {} = .ok a) :
    a.superclass = some shape := by
  induction supers using List.reverseRecOn generalizing a with
  | nil => simp at hlast
  | append_singleton front t ih =>
      rw [List.foldlM_append, Outcome.bind_eq_ok_iff] at h
      obtain ⟨a', hfront, h⟩ := h
      rw [List.foldlM_cons, Outcome.bind_eq_ok_iff] at h
      obtain ⟨a'', hadd, h⟩ := h
      obtain rfl := Except.ok.inj h
      obtain ⟨shape', hshape', hsuperclass⟩ := superclass_of_add hadd
      rw [List.filter_append] at hlast
      cases hclass : t.isClass with
      | true =>
          obtain rfl : t = s := by simpa [hclass] using hlast
          rw [hsuperclass, if_pos hclass, Except.ok.inj (hshape'.symm.trans hshape)]
      | false =>
          rw [hsuperclass, hclass]
          exact ih (by simpa [hclass] using hlast) hfront

/-- A sealed class is shown as its own wrapper when no request before it gives its type another
name. -/
theorem shown_of_first {requests earlier later : List Request} {extra : List Shape} {erase : Bool}
    {B : SealedDecl} {sources : List Location} (member : String)
    (hctx : Session.start requests extra erase = .ok ctx)
    (hrequests : requests = earlier ++ .declaration (.sealed B) sources :: later)
    (hfirst : ∀ q ∈ earlier, ∀ name, q.registered? = some (B.toHeader.shape, name) →
      name = B.simpleName) :
    ctx.shown member B.toHeader.shape =
      .ok { name := B.simpleName, package := ctx.facadePackage B.package } := by
  obtain ⟨known, hknown, hT, rfl⟩ := Session.start_eq_ok hctx
  have hfind : known.find? (fun entry => entry.1 = B.toHeader.shape) =
      some (B.toHeader.shape, B.simpleName) := by
    rw [Session.find?_exportedTypes hknown, hrequests, List.filterMap_append, List.find?_append]
    cases hearlier : (earlier.filterMap Request.registered?).find?
        (fun entry => entry.1 = B.toHeader.shape) with
    | none =>
        simp [Request.registered?, Declaration.typeParams, Session.nativeType, Except.toOption]
    | some entry =>
        obtain ⟨native, name⟩ := entry
        obtain rfl : native = B.toHeader.shape := by simpa using List.find?_some hearlier
        obtain ⟨q, hq, hregistered⟩ := List.mem_filterMap.1 (List.mem_of_find?_eq_some hearlier)
        obtain rfl := hfirst q hq name hregistered
        rfl
  have hmem := List.mem_of_find?_eq_some hfind
  obtain ⟨hbuiltin, hexception⟩ := (exists_ofSession_iff.1 ⟨_, hT⟩).declared _
    (mem_declaredKeys.2 ⟨_, _, hmem, rfl, rfl⟩)
  have hc := conversion?_of_declared hT
    (fun _ hentry => Session.nullable_of_mem_exportedTypes hknown hentry) hfind rfl hbuiltin
    hexception
  rw [Context.shown, exported_of_wrapper hc]
  rfl

end Superclasses

section Sealed

variable {ctx : Context} {B : SealedDecl} {C : ClassDecl} {F G : File}

/-- A class lists a sealed class among its supertypes and has all its members, which override. -/
structure Extends (C : ClassDecl) (B : SealedDecl) : Prop where
  supers : ∃ s ∈ C.supers, s.isClass = true ∧ s.type = B.toHeader.shape
  properties : ∀ p ∈ B.properties, { p with isOverride := true } ∈ C.properties
  functions : ∀ f ∈ B.functions, { f with isOverride := true } ∈ C.functions

/-- The wrapper in a file overrides every member of the wrapper in another file, which are all
abstract. -/
structure OverridesMembers (F G : File) : Prop where
  types : ∃ own base, F.type? F.name = some own ∧ G.type? G.name = some base ∧
    (∀ inherited ∈ base.properties, ∃ p ∈ own.properties, p.Overrides inherited) ∧
    ∀ inherited ∈ base.functions, ∃ f ∈ own.functions, f.Overrides inherited

/-- The wrapper in a file has the wrapper in another file as its superclass. -/
def HasSuperclass (F G : File) : Prop :=
  ∃ own, F.type? F.name = some own ∧
    own.superclass = some { name := G.name, package := G.package }

/-- The wrapper of a class overrides all members of the wrapper of its sealed base. -/
theorem overridesMembers_of_extends
    (hextends : Extends C B)
    (hF : ofClass ctx C = .ok F)
    (hG : ofSealed ctx B = .ok G) :
    OverridesMembers F G := by
  obtain ⟨base, hbase, rfl⟩ := ofSealed_eq_ok hG
  obtain ⟨ancestry, constructors, properties, functions, -, -, hproperties, hfunctions, rfl⟩ :=
    ofClass_eq_ok hF
  obtain ⟨s, hs, -, -⟩ := hextends.supers
  have hsupers : (!C.supers.isEmpty) = true := by
    simpa using List.ne_nil_of_mem hs
  obtain ⟨abstracts, abstracts', hinherited, hinherited', rfl⟩ := sealedType_eq_ok hbase
  refine ⟨_, _, by simp [File.type?, File.types, fileOf, classType]; rfl,
    by simp [File.type?, File.types, fileOf]; rfl, ?_, ?_⟩
  · intro p' hp'
    obtain ⟨p, hp, habstract⟩ := Outcome.exists_left_of_forall₂ hinherited hp'
    obtain ⟨own, hown, hwrap⟩ := Outcome.exists_left_of_forall₂ hproperties.flip
      (hextends.properties p hp)
    rw [hsupers] at hwrap
    exact ⟨own, hown, wrapProperty_overrides habstract hwrap⟩
  · intro f' hf'
    obtain ⟨f, hf, habstract⟩ := Outcome.exists_left_of_forall₂ hinherited' hf'
    obtain ⟨own, hown, hwrap⟩ := Outcome.exists_left_of_forall₂ hfunctions.flip
      (hextends.functions f hf)
    rw [hsupers] at hwrap
    exact ⟨own, hown, wrapFunction_overrides habstract hwrap⟩

/-- The last of the superclasses is the one that the wrapper extends. -/
theorem hasSuperclass_of_getLast? {s : Supertype}
    (hlast : (C.supers.filter Supertype.isClass).getLast? = some s)
    (hshown : ctx.shown s.type.name s.type =
      .ok { name := B.simpleName, package := ctx.facadePackage B.package })
    (hF : ofClass ctx C = .ok F)
    (hG : ofSealed ctx B = .ok G) :
    HasSuperclass F G := by
  obtain ⟨base, hbase, rfl⟩ := ofSealed_eq_ok hG
  obtain ⟨ancestry, constructors, properties, functions, hancestry, -, -, -, rfl⟩ :=
    ofClass_eq_ok hF
  refine ⟨_, by simp [File.type?, File.types, fileOf, classType]; rfl, ?_⟩
  exact superclass_of_getLast? hlast hshown (checkedAncestry_eq_ok hancestry).2

end Sealed

/-- Adapters implement the members of their interfaces, and wrappers override those of their sealed
bases, which they extend unless another superclass comes after. -/
theorem wrappers_override_inherited_members {requests : List Request} {extra : List Shape}
    {erase : Bool} {ctx : Context}
    (hctx : Session.start requests extra erase = .ok ctx) :
    (∀ i F, ofInterface ctx i = .ok F → Implemented F) ∧
      ∀ B C G F, ofSealed ctx B = .ok G → ofClass ctx C = .ok F → Extends C B →
        OverridesMembers F G ∧
          ∀ earlier sources later s,
            requests = earlier ++ .declaration (.sealed B) sources :: later →
            (∀ q ∈ earlier, ∀ name, q.registered? = some (B.toHeader.shape, name) →
              name = B.simpleName) →
            (C.supers.filter Supertype.isClass).getLast? = some s →
            s.type = B.toHeader.shape →
            HasSuperclass F G := by
  refine ⟨fun i F => implemented_of_ofInterface, ?_⟩
  intro B C G F hG hF hextends
  refine ⟨overridesMembers_of_extends hextends hF hG, ?_⟩
  intro earlier sources later s hrequests hfirst hlast hs
  refine hasSuperclass_of_getLast? hlast ?_ hF hG
  rw [hs]
  exact shown_of_first _ hctx hrequests hfirst

section Creatures

/-- A sealed class with a property that can be set and a function. -/
def creature : SealedDecl :=
  { package := "zoo", simpleName := "Creature",
    properties := [{ name := "age", type := .long, isMutable := true }],
    functions := [{ name := "call", result := .listOf .string,
                    params := [{ name := "times", type := .long }] }],
    subclasses := [⟨"zoo", "Hound"⟩] }

/-- A class with the members of the sealed class. -/
def hound (supers : List Supertype) : ClassDecl :=
  { package := "zoo", simpleName := "Hound", supers,
    properties := [{ name := "age", type := .long, isMutable := true, isOverride := true }],
    functions := [{ name := "call", result := .listOf .string,
                    params := [{ name := "times", type := .long }], isOverride := true }] }

def superCreature : Supertype :=
  { type := { name := "Creature", package := "zoo" }, isClass := true, arguments := some [] }

theorem extends_hound {supers : List Supertype}
    (h : superCreature ∈ supers) :
    Extends (hound supers) creature where
  supers := ⟨superCreature, h, rfl, rfl⟩
  properties := by simp [hound, creature]
  functions := by simp [hound, creature]

/-- An interface with a property and a function without result. -/
def walker : InterfaceDecl :=
  { package := "zoo", simpleName := "Walker",
    properties := [{ name := "steps", type := .long }],
    functions := [
      { name := "walk", result := .unit,
        params := [{ name := "to", type := { name := "Creature", package := "zoo" } }] }] }

def houndRequests : List Request :=
  [.declaration (.interface walker) [], .declaration (.sealed creature) [],
    .declaration (.cls (hound [superCreature])) []]

theorem exists_files_of_houndRequests {ctx : Context}
    (hctx : Session.start houndRequests [] false = .ok ctx) :
    (∃ F, ofInterface ctx walker = .ok F) ∧ (∃ G, ofSealed ctx creature = .ok G) ∧
      ∃ F, ofClass ctx (hound [superCreature]) = .ok F := by
  have hfiles : (ofInterface ctx walker).isOk ∧ (ofSealed ctx creature).isOk ∧
      (ofClass ctx (hound [superCreature])).isOk := by
    obtain rfl := Except.ok.inj hctx
    decide +kernel
  have hok : ∀ {x : Except Failure File}, x.isOk = true → ∃ F, x = .ok F := by
    intro x hx
    cases x with
    | error e => simp [Except.isOk, Except.toBool] at hx
    | ok F => exact ⟨F, rfl⟩
  exact ⟨hok hfiles.1, hok hfiles.2.1, hok hfiles.2.2⟩

theorem wrappers_override_inherited_members_of_hound :
    ∃ ctx I G F, Session.start houndRequests [] false = .ok ctx ∧ ofInterface ctx walker = .ok I ∧
      ofSealed ctx creature = .ok G ∧ ofClass ctx (hound [superCreature]) = .ok F ∧
      Implemented I ∧ OverridesMembers F G ∧ HasSuperclass F G := by
  obtain ⟨ctx, hctx⟩ : ∃ ctx, Session.start houndRequests [] false = .ok ctx := ⟨_, rfl⟩
  obtain ⟨⟨I, hI⟩, ⟨G, hG⟩, F, hF⟩ := exists_files_of_houndRequests hctx
  obtain ⟨himplemented, hsealed⟩ := wrappers_override_inherited_members hctx
  obtain ⟨hmembers, hsuperclass⟩ := hsealed creature _ G F hG hF (extends_hound List.mem_cons_self)
  refine ⟨ctx, I, G, F, hctx, hI, hG, hF, himplemented walker I hI, hmembers, ?_⟩
  refine hsuperclass [.declaration (.interface walker) []] [] _ superCreature rfl ?_ rfl rfl
  intro q hq name hregistered
  obtain rfl := List.mem_singleton.1 hq
  simp [Request.registered?, Declaration.typeParams, Session.nativeType, Except.toOption, walker,
    Template.native, Shape.withArgs, Header.shape, creature] at hregistered

/-- A request that registers the sealed class under another name, and fails for lack of type
parameters. -/
def beastRequests : List Request :=
  [.generics "Beast" (.sealed creature) [] [], .declaration (.sealed creature) [],
    .declaration (.cls (hound [superCreature])) []]

/-- Another sealed class. -/
def pet : SealedDecl :=
  { package := "zoo", simpleName := "Pet", subclasses := [⟨"zoo", "Hound"⟩] }

def superPet : Supertype :=
  { type := { name := "Pet", package := "zoo" }, isClass := true, arguments := some [] }

/-- A class with two class supertypes. -/
def petRequests : List Request :=
  [.declaration (.sealed creature) [], .declaration (.sealed pet) [],
    .declaration (.cls (hound [superCreature, superPet])) []]

/-- Whether both classes are wrapped and the wrapper of the class extends something else than the
wrapper of the sealed class. -/
def missesSuperclass (ctx : Context) (C : ClassDecl) (B : SealedDecl) : Bool :=
  (ofClass ctx C).toOption.any fun F => (ofSealed ctx B).toOption.any fun G =>
    (F.type? F.name).all fun own =>
      own.superclass ≠ some { name := G.name, package := G.package }

theorem exists_files_of_missesSuperclass {ctx : Context} {C : ClassDecl} {B : SealedDecl}
    (h : missesSuperclass ctx C B = true) :
    ∃ G F, ofSealed ctx B = .ok G ∧ ofClass ctx C = .ok F ∧ ¬ HasSuperclass F G := by
  obtain ⟨F, hF, h⟩ := Outcome.exists_ok_of_any h
  obtain ⟨G, hG, h⟩ := Outcome.exists_ok_of_any h
  refine ⟨G, F, hG, hF, ?_⟩
  rintro ⟨own, hown, hsuperclass⟩
  rw [hown] at h
  simp [hsuperclass] at h

/-- A wrapper need not extend the wrapper of a sealed class that its class lists: the session may
know the sealed class under another name, and the last of several class supertypes wins. -/
theorem exists_unextended_base :
    (∃ ctx G F, Session.start beastRequests [] false = .ok ctx ∧ ofSealed ctx creature = .ok G ∧
      ofClass ctx (hound [superCreature]) = .ok F ∧ Extends (hound [superCreature]) creature ∧
      ¬ HasSuperclass F G) ∧
    ∃ ctx G F, Session.start petRequests [] false = .ok ctx ∧ ofSealed ctx creature = .ok G ∧
      ofClass ctx (hound [superCreature, superPet]) = .ok F ∧
      Extends (hound [superCreature, superPet]) creature ∧ ¬ HasSuperclass F G := by
  constructor
  · obtain ⟨ctx, hctx⟩ : ∃ ctx, Session.start beastRequests [] false = .ok ctx := ⟨_, rfl⟩
    have hmisses : missesSuperclass ctx (hound [superCreature]) creature = true := by
      obtain rfl := Except.ok.inj hctx
      decide +kernel
    obtain ⟨G, F, hG, hF, hnot⟩ := exists_files_of_missesSuperclass hmisses
    exact ⟨ctx, G, F, hctx, hG, hF, extends_hound List.mem_cons_self, hnot⟩
  · obtain ⟨ctx, hctx⟩ : ∃ ctx, Session.start petRequests [] false = .ok ctx := ⟨_, rfl⟩
    have hmisses : missesSuperclass ctx (hound [superCreature, superPet]) creature = true := by
      obtain rfl := Except.ok.inj hctx
      decide +kernel
    obtain ⟨G, F, hG, hF, hnot⟩ := exists_files_of_missesSuperclass hmisses
    exact ⟨ctx, G, F, hctx, hG, hF, extends_hound List.mem_cons_self, hnot⟩

end Creatures

end Facade
