import Facade.Proofs.Registration
import Facade.Proofs.Outcome

/-!
# Files of wrappers

Whatever kind of declaration is wrapped, its file declares a type under the name of the file and
two functions that convert between that type and the native one.  The names are those that the
request registered with the session before any file was built.

**Input.**  A request and the context of its session.

**Results.**
* `wrapProperty_eq_ok` and `wrapFunction_eq_ok`: what makes up a member that forwards to a delegate.
* `ofClass_eq_ok`, `ofInterface_eq_ok`, `ofSealed_eq_ok` and `ofEnumeration_eq_ok`: what makes up
  the file of a declaration; `shownInterface_eq_ok`, `adapter_eq_ok` and `sealedType_eq_ok` do the
  same for its types.
* `heading_of_ofDeclaration` and `ofDeclaration_declares`: the package, the alias and the
  declarations of the file of a declaration.
* `Request.build_declares`: the file of a request declares the wrapper that the request registered.
-/

namespace Facade

open Wrapper Source Mapping

/-- The file declares a wrapper of the native type, with the functions that convert from and to
it. -/
structure Declares (F : File) (native wrapper : Shape) : Prop where
  name : F.name = wrapper.name
  package : F.package = wrapper.package
  type : ∃ t, F.type? wrapper.name = some t
  importer : ∃ f, F.function? (Name.importer wrapper.name) = some f ∧
    f.receiver = some wrapper ∧ f.result = some native
  exporter : ∃ f, F.function? (Name.exporter wrapper.name) = some f ∧
    f.receiver = some native ∧ f.result = some wrapper

/-- The two conversion functions of wrappers never have the same name. -/
theorem importer_ne_exporter (name other : String) :
    Name.importer name ≠ Name.exporter other := by
  intro h
  have hlist := congrArg (fun s => s.toList.head?) h
  simp [Name.importer, Name.exporter] at hlist

theorem ne_entriesHolder (name : String) :
    name ≠ Name.entriesHolder name :=
  ne_of_apply_ne String.length (by simp [Name.entriesHolder])

section Files

variable {ctx : Context} {F : File}

/-- A file with these members declares the wrapper. -/
theorem declares_of_members {native wrapper : Shape} {t : TypeDef} {types : List TypeDef}
    {functions : List FunctionDef} {inward outward : Code.Expr}
    (hname : F.name = wrapper.name)
    (hpackage : F.package = wrapper.package)
    (htypes : F.types = t :: types)
    (ht : t.name = wrapper.name)
    (hfunctions : F.functions = importFunction wrapper.name wrapper native inward ::
      exportFunction wrapper.name wrapper native outward :: functions) :
    Declares F native wrapper where
  name := hname
  package := hpackage
  type := ⟨t, by simp [File.type?, htypes, ht]⟩
  importer := ⟨importFunction wrapper.name wrapper native inward,
    by simp [File.function?, hfunctions, importFunction], rfl, rfl⟩
  exporter := ⟨exportFunction wrapper.name wrapper native outward, by
    have hne := importer_ne_exporter wrapper.name wrapper.name
    simp [File.function?, hfunctions, importFunction, exportFunction, hne], rfl, rfl⟩

theorem checkClosed_eq_ok_iff {t : Template} :
    checkClosed t = .ok () ↔ t.typeParams = [] := by
  rw [checkClosed]
  split
  · next h => simpa using h
  · next h => simpa using h

/-- What makes up a property that forwards to a delegate. -/
theorem wrapProperty_eq_ok {side : Direction} {delegate : String} {modifiers : List String}
    {p : Property} {p' : PropertyDef}
    (h : wrapProperty ctx side delegate modifiers p = .ok p') :
    ∃ setter type getter,
      (p.isMutable = true ∧
          (∃ value, ctx.convertIn p.name side.flip (.name "value") p.type = .ok value ∧
            setter = some [.assign (ofDelegate delegate p.name) value]) ∨
        p.isMutable = false ∧ setter = none) ∧
      ctx.visible side p.name p.type = .ok type ∧
      ctx.convertIn p.name side (ofDelegate delegate p.name) p.type = .ok getter ∧
      p' = { name := Name.safe p.name, type, modifiers, isMutable := p.isMutable,
             getter := some getter, setter } := by
  simp only [wrapProperty] at h
  split at h
  · next hmutable =>
      obtain ⟨value, hvalue, h⟩ := Outcome.bind_eq_ok_iff.1 h
      obtain ⟨setter, hsetter, h⟩ := Outcome.bind_eq_ok_iff.1 h
      obtain ⟨type, htype, h⟩ := Outcome.bind_eq_ok_iff.1 h
      obtain ⟨getter, hgetter, h⟩ := Outcome.bind_eq_ok_iff.1 h
      exact ⟨setter, type, getter, .inl ⟨hmutable, value, hvalue, (Except.ok.inj hsetter).symm⟩,
        htype, hgetter, (Except.ok.inj h).symm⟩
  · next hmutable =>
      obtain ⟨setter, hsetter, h⟩ := Outcome.bind_eq_ok_iff.1 h
      obtain ⟨type, htype, h⟩ := Outcome.bind_eq_ok_iff.1 h
      obtain ⟨getter, hgetter, h⟩ := Outcome.bind_eq_ok_iff.1 h
      exact ⟨setter, type, getter,
        .inr ⟨Bool.eq_false_iff.2 hmutable, (Except.ok.inj hsetter).symm⟩, htype, hgetter,
        (Except.ok.inj h).symm⟩

/-- What makes up a function that forwards to a delegate. -/
theorem wrapFunction_eq_ok {side : Direction} {delegate : String} {modifiers : List String}
    {f : Function} {f' : FunctionDef}
    (h : wrapFunction ctx side delegate modifiers f = .ok f') :
    ∃ params args,
      f.params.mapM (wrapParameter ctx side f.name) = .ok params ∧
      f.params.mapM (passArgument ctx side f.name) = .ok args ∧
      (isUnit f.result = true ∧
          f' = { name := Name.safe f.name, params, modifiers,
                 body := some [.eval (.call (ofDelegate delegate f.name) args)] } ∨
        isUnit f.result = false ∧ ∃ converted type,
          ctx.convertIn f.name side (.name (resultName f.params)) f.result = .ok converted ∧
          ctx.visible side f.name f.result = .ok type ∧
          f' = { name := Name.safe f.name, params, result := some type, modifiers,
                 body := some
                  (if converted.source = resultName f.params then
                    [.ret (.call (ofDelegate delegate f.name) args)]
                  else
                    [.bind (resultName f.params) (.call (ofDelegate delegate f.name) args),
                      .ret converted]) }) := by
  obtain ⟨params, hparams, h⟩ := Outcome.bind_eq_ok_iff.1 h
  obtain ⟨args, hargs, h⟩ := Outcome.bind_eq_ok_iff.1 h
  dsimp only at h
  refine ⟨params, args, hparams, hargs, ?_⟩
  split at h
  · next hunit => exact .inl ⟨hunit, (Except.ok.inj h).symm⟩
  · next hunit =>
      obtain ⟨converted, hconverted, h⟩ := Outcome.bind_eq_ok_iff.1 h
      obtain ⟨type, htype, h⟩ := Outcome.bind_eq_ok_iff.1 h
      exact .inr ⟨Bool.eq_false_iff.2 hunit, converted, type, hconverted, htype,
        (Except.ok.inj h).symm⟩

/-- The delegate of the wrapper of a declaration. -/
def delegateOf (base : String) (t : Template) : String :=
  Name.fresh base (wrappedNames t)

/-- The type that wraps a class. -/
def classType (c : ClassDecl) (ancestry : Ancestry) (constructors : List ConstructorDef)
    (properties : List PropertyDef) (functions : List FunctionDef) : TypeDef :=
  { kind := .cls, name := c.exportedName, modifiers := ["public"], annotations := [.jsExport],
    primary := some (holding (delegateOf "common" c.toTemplate) c.native ["internal", "val"]
      ["internal"]),
    superclass := ancestry.superclass, interfaces := ancestry.interfaces,
    properties, constructors, functions, doc := ancestry.doc c.exportedName }

/-- What makes up the file of a class. -/
theorem ofClass_eq_ok {c : ClassDecl}
    (h : ofClass ctx c = .ok F) :
    ∃ ancestry constructors properties functions,
      checkedAncestry ctx c.toTemplate = .ok ancestry ∧
      (∀ k ∈ constructors, publicConstructor ctx c = .ok k) ∧
      List.Forall₂ (fun p p' => wrapProperty ctx .exporting (delegateOf "common" c.toTemplate)
        (visibility p.isOverride !c.supers.isEmpty) p = .ok p') c.properties properties ∧
      List.Forall₂ (fun f f' => wrapFunction ctx .exporting (delegateOf "common" c.toTemplate)
        (visibility f.isOverride !c.supers.isEmpty) f = .ok f') c.functions functions ∧
      let wrapper : Shape := { name := c.exportedName, package := ctx.facadePackage c.package }
      F = fileOf wrapper.package wrapper.name c.native c.simpleName
        [.type (classType c ancestry constructors properties functions),
          .function (importFunction wrapper.name wrapper c.native
            (.member .self false (delegateOf "common" c.toTemplate))),
          .function (exportFunction wrapper.name wrapper c.native
            (.call (.name wrapper.name) [.self]))] := by
  obtain ⟨ancestry, hancestry, h⟩ := Outcome.bind_eq_ok_iff.1 h
  dsimp only at h
  split at h
  · obtain ⟨k, hk, h⟩ := Outcome.bind_eq_ok_iff.1 h
    obtain ⟨constructors, hconstructors, h⟩ := Outcome.bind_eq_ok_iff.1 h
    obtain ⟨properties, hproperties, h⟩ := Outcome.bind_eq_ok_iff.1 h
    obtain ⟨functions, hfunctions, h⟩ := Outcome.bind_eq_ok_iff.1 h
    obtain rfl := Except.ok.inj h
    obtain rfl := Except.ok.inj hconstructors
    refine ⟨ancestry, [k], properties, functions, hancestry, ?_,
      Outcome.mapM_eq_ok_iff.1 hproperties, Outcome.mapM_eq_ok_iff.1 hfunctions, rfl⟩
    intro k' hk'
    rw [List.mem_singleton.1 hk', hk]
  · obtain ⟨constructors, hconstructors, h⟩ := Outcome.bind_eq_ok_iff.1 h
    obtain ⟨properties, hproperties, h⟩ := Outcome.bind_eq_ok_iff.1 h
    obtain ⟨functions, hfunctions, h⟩ := Outcome.bind_eq_ok_iff.1 h
    obtain rfl := Except.ok.inj h
    obtain rfl := Except.ok.inj hconstructors
    exact ⟨ancestry, [], properties, functions, hancestry, by simp,
      Outcome.mapM_eq_ok_iff.1 hproperties, Outcome.mapM_eq_ok_iff.1 hfunctions, rfl⟩

/-- A class whose supertypes are accepted has no type parameters. -/
theorem checkedAncestry_eq_ok {t : Template} {ancestry : Ancestry}
    (h : checkedAncestry ctx t = .ok ancestry) :
    t.typeParams = [] ∧ Ancestry.ofClass ctx t = .ok ancestry := by
  obtain ⟨⟨⟩, hclosed, h⟩ := Outcome.bind_eq_ok_iff.1 h
  exact ⟨checkClosed_eq_ok_iff.1 hclosed, h⟩

/-- What makes up the file of an interface. -/
theorem ofInterface_eq_ok {i : InterfaceDecl}
    (h : ofInterface ctx i = .ok F) :
    i.typeParams = [] ∧
      let wrapper : Shape := { name := i.exportedName, package := ctx.facadePackage i.package }
      let common := delegateOf "common" i.toTemplate
      let exported := delegateOf "exported" i.toTemplate
      ∃ shown outward inward,
        shownInterface ctx i = .ok shown ∧
        adapter ctx .exporting (exportedAdapter wrapper.name) common i.native wrapper i =
          .ok outward ∧
        adapter ctx .importing (importedAdapter wrapper.name) exported wrapper i.native i =
          .ok inward ∧
        F = fileOf wrapper.package wrapper.name i.native i.simpleName
          [.type shown, .type outward, .type inward,
            .function (importFunction wrapper.name wrapper i.native
              (adapt (exportedAdapter wrapper.name) common (importedAdapter wrapper.name))),
            .function (exportFunction wrapper.name wrapper i.native
              (adapt (importedAdapter wrapper.name) exported (exportedAdapter wrapper.name)))] := by
  obtain ⟨⟨⟩, hclosed, h⟩ := Outcome.bind_eq_ok_iff.1 h
  obtain ⟨shown, hshown, h⟩ := Outcome.bind_eq_ok_iff.1 h
  obtain ⟨outward, houtward, h⟩ := Outcome.bind_eq_ok_iff.1 h
  obtain ⟨inward, hinward, h⟩ := Outcome.bind_eq_ok_iff.1 h
  exact ⟨checkClosed_eq_ok_iff.1 hclosed, shown, outward, inward, hshown, houtward, hinward,
    (Except.ok.inj h).symm⟩

/-- What makes up the file of a sealed class. -/
theorem ofSealed_eq_ok {d : SealedDecl}
    (h : ofSealed ctx d = .ok F) :
    let wrapper : Shape := { name := d.simpleName, package := ctx.facadePackage d.package }
    ∃ base,
      sealedType ctx d = .ok base ∧
      F = fileOf wrapper.package wrapper.name d.toHeader.shape wrapper.name
        [.type base,
          .function (importFunction wrapper.name wrapper d.toHeader.shape (importDispatch ctx d)),
          .function (exportFunction wrapper.name wrapper d.toHeader.shape (exportDispatch d))] := by
  obtain ⟨base, hbase, h⟩ := Outcome.bind_eq_ok_iff.1 h
  obtain ⟨⟨⟩, hnumbers, h⟩ := Outcome.bind_eq_ok_iff.1 h
  exact ⟨base, hbase, (Except.ok.inj h).symm⟩

/-- What makes up the file of an enumeration. -/
theorem ofEnumeration_eq_ok {e : EnumDecl}
    (h : ofEnumeration ctx e = .ok F) :
    let wrapper : Shape := { name := e.simpleName, package := ctx.facadePackage e.package }
    let holder := Name.entriesHolder e.simpleName
    let accessors := e.entries.map Name.safe
    F = fileOf wrapper.package wrapper.name e.toHeader.shape wrapper.name
      [.type (entryClass wrapper.name e.toHeader.shape),
        .function (importFunction wrapper.name wrapper e.toHeader.shape (.name entryProperty)),
        .function (exportFunction wrapper.name wrapper e.toHeader.shape
          (.call (.name wrapper.name) [.self])),
        .type (entriesObject holder (Name.nativeAlias wrapper.name) wrapper.name wrapper accessors),
        .function (valuesFunction holder wrapper.name wrapper accessors),
        .function (valueOfFunction holder wrapper.name wrapper accessors)] := by
  obtain ⟨⟨⟩, hentries, h⟩ := Outcome.bind_eq_ok_iff.1 h
  exact (Except.ok.inj h).symm

/-- What makes up the interface that is shown. -/
theorem shownInterface_eq_ok {i : InterfaceDecl} {t : TypeDef}
    (h : shownInterface ctx i = .ok t) :
    ∃ interfaces properties functions,
      List.Forall₂ (fun s s' => ctx.shown s.type.name s.type = .ok s') i.supers interfaces ∧
      List.Forall₂ (fun p p' =>
        abstractProperty ctx (visibility p.isOverride !i.supers.isEmpty) p = .ok p')
        i.properties properties ∧
      List.Forall₂ (fun f f' =>
        abstractFunction ctx (visibility f.isOverride !i.supers.isEmpty) f = .ok f')
        i.functions functions ∧
      t = { kind := .interface, name := i.exportedName, modifiers := ["public"],
            annotations := [.jsExport], interfaces, properties, functions } := by
  obtain ⟨interfaces, hinterfaces, h⟩ := Outcome.bind_eq_ok_iff.1 h
  obtain ⟨properties, hproperties, h⟩ := Outcome.bind_eq_ok_iff.1 h
  obtain ⟨functions, hfunctions, h⟩ := Outcome.bind_eq_ok_iff.1 h
  exact ⟨interfaces, properties, functions, Outcome.mapM_eq_ok_iff.1 hinterfaces,
    Outcome.mapM_eq_ok_iff.1 hproperties, Outcome.mapM_eq_ok_iff.1 hfunctions,
    (Except.ok.inj h).symm⟩

theorem name_of_shownInterface {i : InterfaceDecl} {t : TypeDef}
    (h : shownInterface ctx i = .ok t) :
    t.name = i.exportedName := by
  obtain ⟨interfaces, properties, functions, -, -, -, rfl⟩ := shownInterface_eq_ok h
  rfl

/-- What makes up an adapter. -/
theorem adapter_eq_ok {i : InterfaceDecl} {side : Direction} {name delegate : String}
    {held implemented : Shape} {t : TypeDef}
    (h : adapter ctx side name delegate held implemented i = .ok t) :
    ∃ properties functions,
      List.Forall₂ (fun p p' => wrapProperty ctx side delegate ["override"] p = .ok p')
        i.properties properties ∧
      List.Forall₂ (fun f f' => wrapFunction ctx side delegate ["override"] f = .ok f')
        i.functions functions ∧
      t = { kind := .cls, name, modifiers := ["private"],
            primary := some (holding delegate held ["val"] []), interfaces := [implemented],
            properties, functions } := by
  obtain ⟨properties, hproperties, h⟩ := Outcome.bind_eq_ok_iff.1 h
  obtain ⟨functions, hfunctions, h⟩ := Outcome.bind_eq_ok_iff.1 h
  exact ⟨properties, functions, Outcome.mapM_eq_ok_iff.1 hproperties,
    Outcome.mapM_eq_ok_iff.1 hfunctions, (Except.ok.inj h).symm⟩

theorem name_of_adapter {i : InterfaceDecl} {side : Direction} {name delegate : String}
    {held implemented : Shape} {t : TypeDef}
    (h : adapter ctx side name delegate held implemented i = .ok t) :
    t.name = name := by
  obtain ⟨properties, functions, -, -, rfl⟩ := adapter_eq_ok h
  rfl

theorem sealedType_eq_ok {d : SealedDecl} {t : TypeDef}
    (h : sealedType ctx d = .ok t) :
    ∃ properties functions,
      List.Forall₂ (fun p p' => abstractProperty ctx abstractModifiers p = .ok p')
        d.properties properties ∧
      List.Forall₂ (fun f f' => abstractFunction ctx abstractModifiers f = .ok f')
        d.functions functions ∧
      t = { kind := .cls, name := d.simpleName, modifiers := abstractModifiers,
            annotations := [.jsExport], properties, functions } := by
  obtain ⟨properties, hproperties, h⟩ := Outcome.bind_eq_ok_iff.1 h
  obtain ⟨functions, hfunctions, h⟩ := Outcome.bind_eq_ok_iff.1 h
  exact ⟨properties, functions, Outcome.mapM_eq_ok_iff.1 hproperties,
    Outcome.mapM_eq_ok_iff.1 hfunctions, (Except.ok.inj h).symm⟩

theorem name_of_sealedType {d : SealedDecl} {t : TypeDef}
    (h : sealedType ctx d = .ok t) :
    t.name = d.simpleName := by
  obtain ⟨properties, functions, -, -, rfl⟩ := sealedType_eq_ok h
  rfl

/-- The file of a declaration has one alias, for the native type. -/
theorem heading_of_ofDeclaration {d : Declaration}
    (h : ofDeclaration ctx d = .ok F) :
    F.package = ctx.facadePackage d.header.package ∧
      F.aliases = [(d.header.shape.qualified, Name.nativeAlias d.header.simpleName)] := by
  cases d with
  | cls c =>
      obtain ⟨ancestry, constructors, properties, functions, -, -, -, -, rfl⟩ := ofClass_eq_ok h
      exact ⟨rfl, rfl⟩
  | interface i =>
      obtain ⟨-, shown, outward, inward, -, -, -, rfl⟩ := ofInterface_eq_ok h
      exact ⟨rfl, rfl⟩
  | sealed d =>
      obtain ⟨base, -, rfl⟩ := ofSealed_eq_ok h
      exact ⟨rfl, rfl⟩
  | enumeration e =>
      obtain rfl := ofEnumeration_eq_ok h
      exact ⟨rfl, rfl⟩
  | other kind header => simp [ofDeclaration] at h

/-- A declaration that can be wrapped is closed, and its file declares its wrapper. -/
theorem ofDeclaration_declares {d : Declaration}
    (h : ofDeclaration ctx d = .ok F) :
    d.typeParams = [] ∧
      ∃ native name, Session.nativeType d = .ok (native, name) ∧
        Declares F native { name, package := ctx.facadePackage native.package } := by
  cases d with
  | cls c =>
      obtain ⟨ancestry, constructors, properties, functions, hancestry, -, -, -, rfl⟩ :=
        ofClass_eq_ok h
      refine ⟨(checkedAncestry_eq_ok hancestry).1, c.native, c.exportedName, rfl, ?_⟩
      exact declares_of_members rfl rfl rfl rfl rfl
  | interface i =>
      obtain ⟨hclosed, shown, outward, inward, hshown, -, -, rfl⟩ := ofInterface_eq_ok h
      refine ⟨hclosed, i.native, i.exportedName, rfl, ?_⟩
      exact declares_of_members rfl rfl rfl (name_of_shownInterface hshown) rfl
  | sealed d =>
      obtain ⟨base, hbase, rfl⟩ := ofSealed_eq_ok h
      refine ⟨rfl, d.toHeader.shape, d.simpleName, rfl, ?_⟩
      exact declares_of_members rfl rfl rfl (name_of_sealedType hbase) rfl
  | enumeration e =>
      obtain rfl := ofEnumeration_eq_ok h
      refine ⟨rfl, e.toHeader.shape, e.simpleName, rfl, ?_⟩
      exact declares_of_members rfl rfl rfl rfl rfl
  | other kind header => simp [ofDeclaration] at h

end Files

section Requests

/-- An instantiation wraps its native type with the arguments, under the name asked for. -/
theorem nativeType_of_instantiate {d d' : Declaration} {args : List Shape} {name : String}
    (h : d.instantiate args (some name) = .ok d')
    (hname : name ≠ "") :
    d.typeParams.length = args.length ∧
      Session.nativeType d' = .ok (d.header.shape.withArgs args, name) := by
  have hlength : ∀ {params : List String} {origin : Option Location} {b : Binding},
      (Binding.ofArgs? params args).mapError (·.placed origin none) = .ok b →
        params.length = args.length := by
    intro params origin b hb
    rw [Outcome.mapError_eq_ok_iff, Binding.ofArgs?] at hb
    split at hb
    · next hlength => exact hlength
    · simp at hb
  have hexported : ∀ t : Template, t.exportName = some name → t.exportedName = name := by
    intro t ht
    simp [Template.exportedName, ht, hname]
  cases d with
  | cls c =>
      obtain ⟨b, hb, h⟩ := Outcome.bind_eq_ok_iff.1 h
      obtain rfl := Except.ok.inj h
      refine ⟨hlength hb, ?_⟩
      rw [Session.nativeType, hexported _ rfl]
      rfl
  | interface i =>
      obtain ⟨b, hb, h⟩ := Outcome.bind_eq_ok_iff.1 h
      obtain rfl := Except.ok.inj h
      refine ⟨hlength hb, ?_⟩
      rw [Session.nativeType, hexported _ rfl]
      rfl
  | sealed d => simp [Declaration.instantiate] at h
  | enumeration e => simp [Declaration.instantiate] at h
  | other kind header => simp [Declaration.instantiate] at h

/-- The name of an instance is not empty. -/
def Request.IsNamed : Request → Prop
  | .generics name _ _ _ => name ≠ ""
  | .declaration _ _ => True

instance (r : Request) : Decidable r.IsNamed :=
  match r with
  | .generics name _ _ _ => inferInstanceAs (Decidable (name ≠ ""))
  | .declaration _ _ => inferInstanceAs (Decidable True)

/-- A request registers the type that it is about. -/
theorem Request.registered?_of_subject {r : Request} {d : Declaration} {native : Shape}
    {name : String}
    (hd : r.subject = .ok d)
    (hnamed : r.IsNamed)
    (hclosed : d.typeParams = [])
    (hnative : Session.nativeType d = .ok (native, name)) :
    r.registered? = some (native, name) := by
  cases r with
  | declaration d' sources =>
      obtain rfl : d' = d := Except.ok.inj hd
      rw [registered?, hclosed, hnative]
      rfl
  | generics name' d' args sources =>
      rw [subject, Outcome.mapError_eq_ok_iff] at hd
      obtain ⟨-, hinstance⟩ := nativeType_of_instantiate hd hnamed
      rw [hinstance] at hnative
      obtain ⟨rfl, rfl⟩ := Prod.mk.inj (Except.ok.inj hnative)
      rfl

/-- The file of a request declares the wrapper that the request registered. -/
theorem Request.build_declares {ctx : Context} {r : Request} {F : File}
    (h : r.build ctx = .ok F)
    (hnamed : r.IsNamed) :
    r.registered? = some (r.native, F.name) ∧
      Declares F r.native { name := F.name, package := ctx.facadePackage r.native.package } := by
  obtain ⟨d, hd, h⟩ := Outcome.bind_eq_ok_iff.1 h
  obtain ⟨hclosed, native, name, hnative, hdeclares⟩ := ofDeclaration_declares h
  obtain rfl := hdeclares.name
  have hregistered := registered?_of_subject hd hnamed hclosed hnative
  rw [← native_of_registered? hregistered]
  exact ⟨hregistered, hdeclares⟩

/-- The file of a result is the one that was built. -/
theorem Request.build_of_fulfil {ctx : Context} {r : Request} {F : File}
    (h : (r.fulfil ctx).file = some F) :
    r.build ctx = .ok F := by
  rw [Request.fulfil] at h
  split at h
  · next hbuild =>
      obtain rfl := Option.some.inj h
      exact hbuild
  · simp at h

end Requests

end Facade
