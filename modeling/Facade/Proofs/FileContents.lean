import Facade.Proofs.Vocabulary
import Facade.Proofs.WrapperFile

/-!
# What the files of wrappers contain

The contents of a wrapper come from few sources: the types that the wrapped declaration mentions
and what they are shown as, the wrapper itself, members that are forwarded to the delegate, and the
subclasses of a sealed class.

**Input.**  A declaration and a vocabulary that covers it.

**Results.**
* `wrapProperty_within` and `wrapFunction_within`: a forwarded member stays within the vocabulary.
* `ofDeclaration_within`: so does the file of a declaration, whatever its kind.
-/

namespace Facade

section Mentions

open Wrapper

def Function.types (f : Function) : List Shape :=
  f.result :: f.params.map Parameter.type

/-- The types of members. -/
def memberTypes (properties : List Property) (functions : List Function) : List Shape :=
  properties.map Property.type ++ functions.flatMap Function.types

def Template.mentions (t : Template) : List Shape :=
  t.native :: (t.supers.map Supertype.type ++ memberTypes t.properties t.functions)

namespace Declaration

/-- The types that a declaration mentions, its own type first. -/
def mentions : Declaration → List Shape
  | cls c => c.toTemplate.mentions ++ c.constructorParams.map Parameter.type
  | interface i => i.toTemplate.mentions
  | sealed d => d.toHeader.shape :: memberTypes d.properties d.functions
  | enumeration e => [e.toHeader.shape]
  | other _ _ => []

/-- The members that a wrapper forwards to its delegate. -/
def forwarded : Declaration → List String
  | cls c => c.properties.map Property.name ++ c.functions.map Function.name
  | interface i => i.properties.map Property.name ++ i.functions.map Function.name
  | _ => []

/-- The names under which the wrapper of a declaration holds a value. -/
def delegates : Declaration → List String
  | cls c => [delegateOf "common" c.toTemplate]
  | interface i => [delegateOf "common" i.toTemplate, delegateOf "exported" i.toTemplate]
  | _ => []

end Declaration

end Mentions

namespace Wrapper

open Source Code Mapping

/-- The branch of a subclass in the choice that gives a native value. -/
def importBranch (ctx : Context) (s : Subclass) : Shape × String :=
  ({ name := s.simpleName, package := ctx.facadePackage s.package }, Name.importer s.simpleName)

/-- The branch of a subclass in the choice that gives a wrapper. -/
def exportBranch (s : Subclass) : Shape × String :=
  (s.shape, Name.exporter s.simpleName)

/-- The vocabulary has what the wrapper of a declaration needs. -/
structure Covers (V : Vocabulary) (ctx : Context) (d : Declaration) : Prop where
  native : ∀ s ∈ d.mentions, V.Knows s
  shown : ∀ s ∈ d.mentions, ∀ s', ctx.table.exported s = .ok s' → V.Knows s'
  convert : ∀ s, ctx.table.Links V.method V.branch s
  forward : ∀ delegate ∈ d.delegates, ∀ member ∈ d.forwarded,
    V.method (.name delegate) (Name.safe member)
  wrapper : ∀ native name, Session.nativeType d = .ok (native, name) → ∀ nullable,
    V.Knows { name, package := ctx.facadePackage native.package, nullable }
  exporter : ∀ native name, Session.nativeType d = .ok (native, name) →
    ∀ x, V.method x (Name.exporter name)
  branch : ∀ s ∈ d.subclasses, V.branch (importBranch ctx s) ∧ V.branch (exportBranch s)
  array : ∀ s, V.Knows s → V.Knows (.arrayOf s)
  string : V.Knows .string
  jsExport : V.Knows .jsExport

variable {V : Vocabulary} {ctx : Context} {d : Declaration}

namespace Covers

/-- What is shown for a type that the declaration mentions is known. -/
theorem knows_shown {member : String} {s s' : Shape}
    (hV : Covers V ctx d)
    (hs : s ∈ d.mentions)
    (h : ctx.shown member s = .ok s') :
    V.Knows s' :=
  hV.shown s hs s' (Outcome.mapError_eq_ok_iff.1 h)

theorem knows_visible {side : Direction} {member : String} {s s' : Shape}
    (hV : Covers V ctx d)
    (hs : s ∈ d.mentions)
    (h : ctx.visible side member s = .ok s') :
    V.Knows s' := by
  cases side with
  | importing =>
      obtain rfl := Except.ok.inj h
      exact hV.native s hs
  | exporting => exact hV.knows_shown hs h

/-- Conversion code only calls what it may. -/
theorem links_convertIn {side : Direction} {member : String} {e x : Expr} {s : Shape}
    (hV : Covers V ctx d)
    (h : ctx.convertIn member side e s = .ok x)
    (he : V.Links e)
    (hcall : e.Invocable V.method) :
    V.Links x :=
  hV.convert s side e x (Outcome.mapError_eq_ok_iff.1 h) he hcall

theorem links_ofDelegate (delegate member : String) :
    V.Links (ofDelegate delegate member) :=
  .member false _ (.name delegate)

/-- The members of a delegate may be called. -/
theorem invocable_ofDelegate {delegate member : String}
    (hV : Covers V ctx d)
    (hdelegate : delegate ∈ d.delegates)
    (hmember : member ∈ d.forwarded) :
    (ofDelegate delegate member).Invocable V.method := by
  intro target safe m h
  obtain ⟨rfl, -, rfl⟩ := Expr.member.inj h
  exact hV.forward delegate hdelegate member hmember

end Covers

section Members

variable {side : Direction} {delegate : String} {modifiers : List String}

/-- A wrapped property stays within the vocabulary of its declaration. -/
theorem wrapProperty_within {p : Property} {p' : PropertyDef}
    (hV : Covers V ctx d)
    (hdelegate : delegate ∈ d.delegates)
    (htype : p.type ∈ d.mentions)
    (hname : p.name ∈ d.forwarded)
    (h : wrapProperty ctx side delegate modifiers p = .ok p') :
    p'.Within V := by
  have htarget : V.Links (ofDelegate delegate p.name) := Covers.links_ofDelegate delegate p.name
  have hcall := hV.invocable_ofDelegate hdelegate hname
  obtain ⟨setter, type, getter, hsetter, htype', hgetter, rfl⟩ := wrapProperty_eq_ok h
  refine ⟨hV.knows_visible htype htype', List.forall_mem_nil _, ?_⟩
  intro e he
  simp only [PropertyDef.code, Option.toList_none, Option.toList_some, List.nil_append,
    List.mem_append, List.mem_singleton] at he
  rcases he with rfl | he
  · exact hV.links_convertIn hgetter htarget hcall
  · rcases hsetter with ⟨-, value, hvalue, rfl⟩ | ⟨-, rfl⟩
    · simp only [Option.getD_some, List.flatMap_cons, List.flatMap_nil, List.append_nil,
        Stmt.terms, List.mem_cons, List.not_mem_nil, or_false] at he
      rcases he with rfl | rfl
      · exact htarget
      · exact hV.links_convertIn hvalue (.name "value") (Expr.invocable_name "value")
    · simp at he

theorem wrapParameters_within {function : String} {params : List Parameter}
    {params' : List ParameterDef}
    (hV : Covers V ctx d)
    (htypes : ∀ p ∈ params, p.type ∈ d.mentions)
    (h : params.mapM (wrapParameter ctx side function) = .ok params') :
    ∀ p' ∈ params', V.Knows p'.type := by
  intro p' hp'
  obtain ⟨p, hp, hwrap⟩ := Outcome.exists_of_mem_mapM h hp'
  obtain ⟨type, htype, hwrap⟩ := Outcome.bind_eq_ok_iff.1 hwrap
  obtain rfl := Except.ok.inj hwrap
  exact hV.knows_visible (htypes p hp) htype

theorem passArguments_within {function : String} {params : List Parameter} {args : List Expr}
    (hV : Covers V ctx d)
    (h : params.mapM (passArgument ctx side function) = .ok args) :
    ∀ a ∈ args, V.Links a := by
  intro a ha
  obtain ⟨p, hp, hpass⟩ := Outcome.exists_of_mem_mapM h ha
  obtain ⟨value, hvalue, hpass⟩ := Outcome.bind_eq_ok_iff.1 hpass
  obtain rfl := Except.ok.inj hpass
  exact .named _ (hV.links_convertIn hvalue (.name _) (Expr.invocable_name _))

/-- A wrapped function stays within the vocabulary of its declaration. -/
theorem wrapFunction_within {f : Function} {f' : FunctionDef}
    (hV : Covers V ctx d)
    (hdelegate : delegate ∈ d.delegates)
    (htypes : ∀ s ∈ f.types, s ∈ d.mentions)
    (hname : f.name ∈ d.forwarded)
    (h : wrapFunction ctx side delegate modifiers f = .ok f') :
    f'.Within V := by
  have hparamTypes : ∀ p ∈ f.params, p.type ∈ d.mentions := fun p hp =>
    htypes _ (List.mem_cons_of_mem _ (List.mem_map_of_mem hp))
  obtain ⟨params, args, hparams, hargs, hresult⟩ := wrapFunction_eq_ok h
  have hknown := wrapParameters_within hV hparamTypes hparams
  have hcall : V.Links (.call (ofDelegate delegate f.name) args) :=
    .call (Covers.links_ofDelegate delegate f.name) (passArguments_within hV hargs)
      fun _ => hV.invocable_ofDelegate hdelegate hname
  rcases hresult with ⟨-, rfl⟩ | ⟨-, converted, type, hconverted, htype, rfl⟩
  · refine ⟨by simp, hknown, by simp, by simp, ?_⟩
    intro e he
    obtain rfl : e = .call (ofDelegate delegate f.name) args := by
      simpa [FunctionDef.code, Stmt.terms] using he
    exact hcall
  · have hresult : V.Knows type := hV.knows_visible (htypes _ List.mem_cons_self) htype
    have hlinked : V.Links converted :=
      hV.links_convertIn hconverted (.name _) (Expr.invocable_name _)
    refine ⟨by simp, hknown, by simpa using hresult, by simp, ?_⟩
    intro e he
    simp only [FunctionDef.code, Option.toList_none, Option.getD_some, List.nil_append] at he
    split at he
    · obtain rfl : e = .call (ofDelegate delegate f.name) args := by
        simpa [Stmt.terms] using he
      exact hcall
    · have hcases : e = .call (ofDelegate delegate f.name) args ∨ e = converted := by
        simpa [Stmt.terms] using he
      rcases hcases with rfl | rfl
      · exact hcall
      · exact hlinked

theorem abstractProperty_within {p : Property} {p' : PropertyDef}
    (hV : Covers V ctx d)
    (htype : p.type ∈ d.mentions)
    (h : abstractProperty ctx modifiers p = .ok p') :
    p'.Within V := by
  obtain ⟨type, hshown, h⟩ := Outcome.bind_eq_ok_iff.1 h
  obtain rfl := Except.ok.inj h
  exact ⟨hV.knows_shown htype hshown, by simp, by simp [PropertyDef.code]⟩

theorem abstractFunction_within {f : Function} {f' : FunctionDef}
    (hV : Covers V ctx d)
    (htypes : ∀ s ∈ f.types, s ∈ d.mentions)
    (h : abstractFunction ctx modifiers f = .ok f') :
    f'.Within V := by
  have hparamTypes : ∀ p ∈ f.params, p.type ∈ d.mentions := fun p hp =>
    htypes _ (List.mem_cons_of_mem _ (List.mem_map_of_mem hp))
  obtain ⟨params, hparams, h⟩ := Outcome.bind_eq_ok_iff.1 h
  have hknown := wrapParameters_within hV hparamTypes hparams
  have hrest : ∀ result : Option Shape, (∀ s ∈ result, V.Knows s) →
      FunctionDef.Within V { name := Name.safe f.name, params, result, modifiers } := by
    intro result hresult
    exact ⟨by simp, hknown, hresult, by simp, by simp [FunctionDef.code]⟩
  dsimp only at h
  split at h
  · obtain ⟨result, hresult, h⟩ := Outcome.bind_eq_ok_iff.1 h
    obtain rfl := Except.ok.inj hresult
    obtain rfl := Except.ok.inj h
    exact hrest none (by simp)
  · obtain ⟨result, hresult, h⟩ := Outcome.bind_eq_ok_iff.1 h
    obtain ⟨s, hs, hresult⟩ := Outcome.bind_eq_ok_iff.1 hresult
    obtain rfl := Except.ok.inj hresult
    obtain rfl := Except.ok.inj h
    have hknows := hV.knows_shown (htypes _ List.mem_cons_self) hs
    exact hrest (some s) (by simpa using hknows)

section Lists

variable {properties : List Property} {functions : List Function}

theorem mem_memberTypes_of_property {p : Property}
    (hp : p ∈ properties) :
    p.type ∈ memberTypes properties functions :=
  List.mem_append_left _ (List.mem_map_of_mem hp)

theorem mem_memberTypes_of_function {f : Function} {s : Shape}
    (hf : f ∈ functions)
    (hs : s ∈ f.types) :
    s ∈ memberTypes properties functions :=
  List.mem_append_right _ (List.mem_flatMap.2 ⟨f, hf, hs⟩)

/-- Members that forward to a delegate stay within the vocabulary. -/
theorem forwardedMembers_within (side : Direction)
    (hV : Covers V ctx d)
    (hdelegate : delegate ∈ d.delegates)
    (htypes : ∀ s ∈ memberTypes properties functions, s ∈ d.mentions)
    (hnames : ∀ n ∈ properties.map Property.name ++ functions.map Function.name,
      n ∈ d.forwarded) :
    (∀ p ∈ properties, ∀ modifiers p', wrapProperty ctx side delegate modifiers p = .ok p' →
      p'.Within V) ∧
    ∀ f ∈ functions, ∀ modifiers f', wrapFunction ctx side delegate modifiers f = .ok f' →
      f'.Within V := by
  constructor
  · intro p hp modifiers p' h
    have hname := hnames p.name (List.mem_append_left _ (List.mem_map_of_mem hp))
    exact wrapProperty_within hV hdelegate (htypes _ (mem_memberTypes_of_property hp)) hname h
  · intro f hf modifiers f' h
    have hname := hnames f.name (List.mem_append_right _ (List.mem_map_of_mem hf))
    exact wrapFunction_within hV hdelegate
      (fun s hs => htypes s (mem_memberTypes_of_function hf hs)) hname h

/-- Members without a body stay within the vocabulary. -/
theorem abstractMembers_within
    (hV : Covers V ctx d)
    (htypes : ∀ s ∈ memberTypes properties functions, s ∈ d.mentions) :
    (∀ p ∈ properties, ∀ modifiers p', abstractProperty ctx modifiers p = .ok p' →
      p'.Within V) ∧
    ∀ f ∈ functions, ∀ modifiers f', abstractFunction ctx modifiers f = .ok f' →
      f'.Within V := by
  constructor
  · intro p hp modifiers p' h
    exact abstractProperty_within hV (htypes _ (mem_memberTypes_of_property hp)) h
  · intro f hf modifiers f' h
    exact abstractFunction_within hV
      (fun s hs => htypes s (mem_memberTypes_of_function hf hs)) h

end Lists

end Members

section Files

theorem holding_within {delegate : String} {type : Shape} {own shared : List String}
    (htype : V.Knows type) :
    (holding delegate type own shared).Within V :=
  ⟨by simpa [holding] using htype, by simp [holding, ConstructorDef.code]⟩

/-- The two conversion functions of a wrapper stay within the vocabulary. -/
theorem conversionFunctions_within (name : String) {wrapper native : Shape}
    {inward outward : Expr}
    (hwrapper : V.Knows wrapper)
    (hnative : V.Knows native)
    (hinward : V.Links inward)
    (houtward : V.Links outward) :
    (importFunction name wrapper native inward).Within V ∧
      (exportFunction name wrapper native outward).Within V := by
  constructor
  · exact ⟨by simpa [importFunction] using hwrapper, by simp [importFunction],
      by simpa [importFunction] using hnative, by simp [importFunction],
      by simpa [importFunction, FunctionDef.code] using hinward⟩
  · exact ⟨by simpa [exportFunction] using hnative, by simp [exportFunction],
      by simpa [exportFunction] using hwrapper, by simp [exportFunction],
      by simpa [exportFunction, FunctionDef.code] using houtward⟩

theorem links_construct (name : String) :
    V.Links (.call (.name name) [.self]) := by
  refine .call (.name name) ?_ (by simp)
  intro a ha
  obtain rfl := List.mem_singleton.1 ha
  exact .name "this"

/-- The supertypes of a wrapper are known. -/
theorem ancestry_within {t : Template} {ancestry : Ancestry}
    (hV : Covers V ctx d)
    (hsupers : ∀ s ∈ t.supers, s.type ∈ d.mentions)
    (h : Ancestry.ofClass ctx t = .ok ancestry) :
    (∀ s ∈ ancestry.superclass, V.Knows s) ∧ ∀ s ∈ ancestry.interfaces, V.Knows s := by
  have hstart : (∀ s ∈ ({} : Ancestry).superclass, V.Knows s) ∧
      ∀ s ∈ ({} : Ancestry).interfaces, V.Knows s := by simp
  rw [Ancestry.ofClass] at h
  refine Outcome.foldlM_invariant (P := fun a : Ancestry =>
    (∀ s ∈ a.superclass, V.Knows s) ∧ ∀ s ∈ a.interfaces, V.Knows s) ?_ {} ancestry hstart h
  rintro a s hs a' ⟨hsuperclass, hinterfaces⟩ hadd
  obtain ⟨shape, hshape, hadd⟩ := Outcome.bind_eq_ok_iff.1 hadd
  have hknows : V.Knows shape := hV.knows_shown (hsupers s hs) hshape
  split at hadd
  · obtain rfl := Except.ok.inj hadd
    refine ⟨hsuperclass, ?_⟩
    intro u hu
    rcases List.mem_append.1 hu with hu | hu
    · exact hinterfaces u hu
    · rwa [List.mem_singleton.1 hu]
  · split at hadd
    · simp at hadd
    · obtain rfl := Except.ok.inj hadd
      exact ⟨by simpa using hknows, hinterfaces⟩

theorem publicConstructor_within {c : ClassDecl} {k : ConstructorDef}
    (hV : Covers V ctx (.cls c))
    (h : publicConstructor ctx c = .ok k) :
    k.Within V := by
  obtain ⟨params, hparams, h⟩ := Outcome.bind_eq_ok_iff.1 h
  obtain ⟨args, hargs, h⟩ := Outcome.bind_eq_ok_iff.1 h
  obtain ⟨⟨⟩, -, h⟩ := Outcome.bind_eq_ok_iff.1 h
  obtain rfl := Except.ok.inj h
  have hknown : ∀ p' ∈ params, V.Knows p'.type := by
    intro p' hp'
    obtain ⟨p, hp, hparam⟩ := Outcome.exists_of_mem_mapM hparams hp'
    obtain ⟨type, htype, hparam⟩ := Outcome.bind_eq_ok_iff.1 hparam
    obtain rfl := Except.ok.inj hparam
    exact hV.knows_shown (List.mem_append_right _ (List.mem_map_of_mem hp)) htype
  have hlinked : ∀ a ∈ args, V.Links a := by
    intro a ha
    obtain ⟨p, -, harg⟩ := Outcome.exists_of_mem_mapM hargs ha
    obtain ⟨value, hvalue, harg⟩ := Outcome.bind_eq_ok_iff.1 harg
    obtain rfl := Except.ok.inj harg
    exact .named _ (hV.convert p.type .importing _ value (Outcome.mapError_eq_ok_iff.1 hvalue)
      (.name _) (Expr.invocable_name _))
  refine ⟨hknown, ?_⟩
  intro e he
  obtain rfl := Option.mem_some.1 (Option.mem_toList.1 he)
  refine .call (.name "this") ?_ (by simp)
  intro a ha
  obtain rfl := List.mem_singleton.1 ha
  exact .call (.typed _ _) hlinked fun _ => Expr.invocable_typed _ _

theorem Template.mem_mentions_of_super {t : Template} {s : Supertype}
    (hs : s ∈ t.supers) :
    s.type ∈ t.mentions :=
  List.mem_cons_of_mem _ (List.mem_append_left _ (List.mem_map_of_mem hs))

theorem Template.mem_mentions_of_member {t : Template} {s : Shape}
    (hs : s ∈ memberTypes t.properties t.functions) :
    s ∈ t.mentions :=
  List.mem_cons_of_mem _ (List.mem_append_right _ hs)

/-- The file of a class stays within the vocabulary of the class. -/
theorem ofClass_within {c : ClassDecl} {F : File}
    (hV : Covers V ctx (.cls c))
    (h : ofClass ctx c = .ok F) :
    F.Within V := by
  obtain ⟨ancestry, constructors, properties, functions, hancestry, hconstructors, hproperties,
    hfunctions, rfl⟩ := ofClass_eq_ok h
  have hmentions : ∀ s ∈ c.toTemplate.mentions, s ∈ (Declaration.cls c).mentions :=
    fun s hs => List.mem_append_left _ hs
  have hnative : V.Knows c.native := hV.native _ (hmentions _ List.mem_cons_self)
  have hdelegate : delegateOf "common" c.toTemplate ∈ (Declaration.cls c).delegates :=
    List.mem_singleton.2 rfl
  have hmembers := forwardedMembers_within .exporting hV hdelegate
    (fun s hs => hmentions s (Template.mem_mentions_of_member hs)) (fun _ hn => hn)
  obtain ⟨hsuperclass, hinterfaces⟩ := ancestry_within hV
    (fun s hs => hmentions _ (Template.mem_mentions_of_super hs))
    (checkedAncestry_eq_ok hancestry).2
  have htype : (classType c ancestry constructors properties functions).Within V := by
    refine ⟨by simpa [classType] using hV.jsExport, ?_, hsuperclass, hinterfaces, ?_, ?_, ?_⟩
    · intro k hk
      obtain rfl := Option.mem_some.1 hk
      exact holding_within hnative
    · intro p' hp'
      obtain ⟨p, hp, hwrap⟩ := Outcome.exists_left_of_forall₂ hproperties hp'
      exact hmembers.1 p hp _ p' hwrap
    · intro k hk
      exact publicConstructor_within hV (hconstructors k hk)
    · intro f' hf'
      obtain ⟨f, hf, hwrap⟩ := Outcome.exists_left_of_forall₂ hfunctions hf'
      exact hmembers.2 f hf _ f' hwrap
  obtain ⟨himport, hexport⟩ := conversionFunctions_within c.exportedName
    (hV.wrapper _ _ rfl false) hnative (.member false (delegateOf "common" c.toTemplate)
      (.name "this")) (links_construct c.exportedName)
  intro m hm
  simp only [fileOf, List.mem_cons, List.not_mem_nil, or_false] at hm
  rcases hm with rfl | rfl | rfl
  · exact htype
  · exact himport
  · exact hexport

theorem shownInterface_within {i : InterfaceDecl} {t : TypeDef}
    (hV : Covers V ctx (.interface i))
    (h : shownInterface ctx i = .ok t) :
    t.Within V := by
  obtain ⟨interfaces, properties, functions, hinterfaces, hproperties, hfunctions, rfl⟩ :=
    shownInterface_eq_ok h
  have hmembers := abstractMembers_within hV
    (fun s hs => (Template.mem_mentions_of_member hs : s ∈ (Declaration.interface i).mentions))
  refine ⟨by simpa using hV.jsExport, by simp, by simp, ?_, ?_, by simp, ?_⟩
  · intro s' hs'
    obtain ⟨s, hs, hshown⟩ := Outcome.exists_left_of_forall₂ hinterfaces hs'
    exact hV.knows_shown (Template.mem_mentions_of_super hs) hshown
  · intro p' hp'
    obtain ⟨p, hp, habstract⟩ := Outcome.exists_left_of_forall₂ hproperties hp'
    exact hmembers.1 p hp _ p' habstract
  · intro f' hf'
    obtain ⟨f, hf, habstract⟩ := Outcome.exists_left_of_forall₂ hfunctions hf'
    exact hmembers.2 f hf _ f' habstract

/-- An adapter stays within the vocabulary of its interface. -/
theorem adapter_within {i : InterfaceDecl} {t : TypeDef} {side : Direction} {name delegate : String}
    {held implemented : Shape}
    (hV : Covers V ctx (.interface i))
    (hdelegate : delegate ∈ (Declaration.interface i).delegates)
    (hheld : V.Knows held)
    (himplemented : V.Knows implemented)
    (h : adapter ctx side name delegate held implemented i = .ok t) :
    t.Within V := by
  obtain ⟨properties, functions, hproperties, hfunctions, rfl⟩ := adapter_eq_ok h
  have hmembers := forwardedMembers_within side hV hdelegate
    (fun s hs => Template.mem_mentions_of_member hs) (fun _ hn => hn)
  refine ⟨by simp, ?_, by simp, by simpa using himplemented, ?_, by simp, ?_⟩
  · intro k hk
    obtain rfl := Option.mem_some.1 hk
    exact holding_within hheld
  · intro p' hp'
    obtain ⟨p, hp, hwrap⟩ := Outcome.exists_left_of_forall₂ hproperties hp'
    exact hmembers.1 p hp _ p' hwrap
  · intro f' hf'
    obtain ⟨f, hf, hwrap⟩ := Outcome.exists_left_of_forall₂ hfunctions hf'
    exact hmembers.2 f hf _ f' hwrap

theorem links_adapt (own field other : String) :
    V.Links (adapt own field other) :=
  .orElse (.member true field (.safeCast own (.name "this"))) (links_construct other)

/-- The file of an interface stays within its vocabulary. -/
theorem ofInterface_within {i : InterfaceDecl} {F : File}
    (hV : Covers V ctx (.interface i))
    (h : ofInterface ctx i = .ok F) :
    F.Within V := by
  obtain ⟨-, shown, outward, inward, hshown, houtward, hinward, rfl⟩ := ofInterface_eq_ok h
  have hnative : V.Knows i.native := hV.native _ List.mem_cons_self
  have hwrapper := hV.wrapper _ _ rfl false
  obtain ⟨himport, hexport⟩ := conversionFunctions_within i.exportedName hwrapper hnative
    (links_adapt _ _ _) (links_adapt _ _ _)
  intro m hm
  simp only [fileOf, List.mem_cons, List.not_mem_nil, or_false] at hm
  rcases hm with rfl | rfl | rfl | rfl | rfl
  · exact shownInterface_within hV hshown
  · exact adapter_within hV List.mem_cons_self hnative hwrapper houtward
  · exact adapter_within hV (List.mem_cons_of_mem _ List.mem_cons_self) hwrapper hnative hinward
  · exact himport
  · exact hexport

theorem sealedType_within {r : SealedDecl} {t : TypeDef}
    (hV : Covers V ctx (.sealed r))
    (h : sealedType ctx r = .ok t) :
    t.Within V := by
  obtain ⟨properties, functions, hproperties, hfunctions, rfl⟩ := sealedType_eq_ok h
  have hmembers := abstractMembers_within hV fun s hs => List.mem_cons_of_mem _ hs
  refine ⟨by simpa using hV.jsExport, by simp, by simp, by simp, ?_, by simp, ?_⟩
  · intro p' hp'
    obtain ⟨p, hp, habstract⟩ := Outcome.exists_left_of_forall₂ hproperties hp'
    exact hmembers.1 p hp _ p' habstract
  · intro f' hf'
    obtain ⟨f, hf, habstract⟩ := Outcome.exists_left_of_forall₂ hfunctions hf'
    exact hmembers.2 f hf _ f' habstract

/-- The file of a sealed class stays within its vocabulary. -/
theorem ofSealed_within {r : SealedDecl} {F : File}
    (hV : Covers V ctx (.sealed r))
    (h : ofSealed ctx r = .ok F) :
    F.Within V := by
  obtain ⟨base, hbase, rfl⟩ := ofSealed_eq_ok h
  have himportBranches : V.Links (importDispatch ctx r) := by
    refine .dispatch _ ?_
    intro b hb
    obtain ⟨s, hs, rfl⟩ := List.mem_map.1 hb
    exact (hV.branch s hs).1
  have hexportBranches : V.Links (exportDispatch r) := by
    refine .dispatch _ ?_
    intro b hb
    obtain ⟨s, hs, rfl⟩ := List.mem_map.1 hb
    exact (hV.branch s hs).2
  obtain ⟨himport, hexport⟩ := conversionFunctions_within r.simpleName (hV.wrapper _ _ rfl false)
    (hV.native _ List.mem_cons_self) himportBranches hexportBranches
  intro m hm
  simp only [fileOf, List.mem_cons, List.not_mem_nil, or_false] at hm
  rcases hm with rfl | rfl | rfl
  · exact sealedType_within hV hbase
  · exact himport
  · exact hexport

theorem links_entryRef (holder accessor : String) :
    V.Links (entryRef holder accessor) :=
  .member false accessor (.name holder)

theorem entryClass_within {e : EnumDecl}
    (hV : Covers V ctx (.enumeration e)) :
    (entryClass e.simpleName e.toHeader.shape).Within V := by
  refine ⟨by simpa [entryClass] using hV.jsExport, ?_, by simp [entryClass],
    by simp [entryClass], ?_, by simp [entryClass], by simp [entryClass]⟩
  · intro k hk
    obtain rfl := Option.mem_some.1 hk
    exact holding_within (hV.native _ List.mem_cons_self)
  · intro p hp
    obtain rfl := List.mem_singleton.1 hp
    refine ⟨hV.string, by simp, ?_⟩
    intro x hx
    obtain rfl : x = .member (.name entryProperty) false "name" := by
      simpa [PropertyDef.code] using hx
    exact .member false "name" (.name entryProperty)

theorem entriesObject_within {e : EnumDecl} (accessors : List String)
    (hV : Covers V ctx (.enumeration e)) :
    (entriesObject (Name.entriesHolder e.simpleName) (Name.nativeAlias e.simpleName) e.simpleName
      { name := e.simpleName, package := ctx.facadePackage e.package } accessors).Within V := by
  refine ⟨by simpa [entriesObject] using hV.jsExport, by simp [entriesObject],
    by simp [entriesObject], by simp [entriesObject], ?_, by simp [entriesObject],
    by simp [entriesObject]⟩
  intro p hp
  obtain ⟨a, -, rfl⟩ := List.mem_map.1 hp
  refine ⟨hV.wrapper _ _ rfl false, by simp, ?_⟩
  intro x hx
  obtain rfl : x = (entryRef (Name.nativeAlias e.simpleName) a).send false
      (Name.exporter e.simpleName) := by
    simpa [PropertyDef.code] using hx
  exact (links_entryRef _ a).send false (hV.exporter _ _ rfl _)

theorem valuesFunction_within {e : EnumDecl} (accessors : List String)
    (hV : Covers V ctx (.enumeration e)) :
    (valuesFunction (Name.entriesHolder e.simpleName) e.simpleName
      { name := e.simpleName, package := ctx.facadePackage e.package } accessors).Within V := by
  have hresult : V.Knows
      (.arrayOf { name := e.simpleName, package := ctx.facadePackage e.package }) :=
    hV.array _ (hV.wrapper _ _ rfl false)
  refine ⟨by simp [valuesFunction], by simp [valuesFunction],
    by simpa [valuesFunction] using hresult, by simpa [valuesFunction] using hV.jsExport, ?_⟩
  intro x hx
  obtain rfl : x = .call (.name "arrayOf")
      (accessors.map (entryRef (Name.entriesHolder e.simpleName))) := by
    simpa [valuesFunction, FunctionDef.code] using hx
  refine .call (.name "arrayOf") ?_ (fun _ => Expr.invocable_name "arrayOf")
  intro a ha
  obtain ⟨accessor, -, rfl⟩ := List.mem_map.1 ha
  exact links_entryRef _ accessor

theorem valueOfFunction_within {e : EnumDecl} (accessors : List String)
    (hV : Covers V ctx (.enumeration e)) :
    (valueOfFunction (Name.entriesHolder e.simpleName) e.simpleName
      { name := e.simpleName, package := ctx.facadePackage e.package } accessors).Within V := by
  have hresult : V.Knows
      { name := e.simpleName, package := ctx.facadePackage e.package, nullable := true } :=
    hV.wrapper _ _ rfl true
  refine ⟨by simp [valueOfFunction], by simpa [valueOfFunction] using hV.string,
    by simpa [valueOfFunction, Shape.withNullable] using hresult,
    by simpa [valueOfFunction] using hV.jsExport, ?_⟩
  intro x hx
  have hcases : (∃ a ∈ accessors, x = entryRef (Name.entriesHolder e.simpleName) a) ∨
      x = .name "null" := by
    simpa [valueOfFunction, FunctionDef.code, Stmt.terms, List.flatMap_map, eq_comm] using hx
  rcases hcases with ⟨a, -, rfl⟩ | rfl
  · exact links_entryRef _ a
  · exact .name "null"

/-- The file of an enumeration stays within its vocabulary. -/
theorem ofEnumeration_within {e : EnumDecl} {F : File}
    (hV : Covers V ctx (.enumeration e))
    (h : ofEnumeration ctx e = .ok F) :
    F.Within V := by
  obtain rfl := ofEnumeration_eq_ok h
  obtain ⟨himport, hexport⟩ := conversionFunctions_within e.simpleName (hV.wrapper _ _ rfl false)
    (hV.native _ List.mem_cons_self) (.name entryProperty) (links_construct e.simpleName)
  intro m hm
  simp only [fileOf, List.mem_cons, List.not_mem_nil, or_false] at hm
  rcases hm with rfl | rfl | rfl | rfl | rfl | rfl
  · exact entryClass_within hV
  · exact himport
  · exact hexport
  · exact entriesObject_within _ hV
  · exact valuesFunction_within _ hV
  · exact valueOfFunction_within _ hV

/-- The file of a declaration uses nothing but what the declaration needs. -/
theorem ofDeclaration_within {F : File}
    (hV : Covers V ctx d)
    (h : ofDeclaration ctx d = .ok F) :
    F.Within V := by
  cases d with
  | cls c => exact ofClass_within hV h
  | interface i => exact ofInterface_within hV h
  | sealed r => exact ofSealed_within hV h
  | enumeration e => exact ofEnumeration_within hV h
  | other kind header => simp [ofDeclaration] at h

end Files

end Wrapper

end Facade
