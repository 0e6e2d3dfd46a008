import Facade.Proofs.Conditions
import Facade.Proofs.ErasedNames
import Facade.Proofs.FreshNames
import Facade.Proofs.Overriding
import Facade.Proofs.SpelledTypes

/-!
# What simple names in generated code stand for

A type that needs no import is named by its simple name in generated code.  The file that the code
goes to may give that name to another type: it may declare one, import one, or have an alias for
one.

**Input.**  A session and the file of a declaration.

**Algorithm.**  The code of a file consists of conversions of the types of members, of the type
arguments of the constructed class, and of the choices by subclass of a sealed class.

**Results.**
* `mem_spelled_ofDeclaration`: the types that the code of a file names without their package.
* `simple_names_kept_iff`: when all these names stand for the types that are meant.
-/

namespace Facade

namespace Source

open Code

namespace File

/-- The types that the code of a file names without their package. -/
def spelled (F : File) : List Key :=
  Expr.spelledAll F.code

/-- The file gives the simple name of the type to another type. -/
inductive Captures (F : File) (k : Key) : Prop
  | declared
      (hdeclares : F.Declares k.name)
      (hother : k.package ≠ F.package)
  | introduced {q : String}
      (hmem : (k.name, q) ∈ F.introduced)
      (hother : q ≠ k.qualified)

end File

end Source

open Code Mapping Source Wrapper

section Conversions

def propertyConversions (side : Direction) (p : Property) : List (Direction × Shape) :=
  (side, p.type) :: if p.isMutable then [(side.flip, p.type)] else []

def functionConversions (side : Direction) (f : Function) : List (Direction × Shape) :=
  (side, f.result) :: f.params.map fun p => (side.flip, p.type)

def memberConversions (side : Direction) (properties : List Property) (functions : List Function) :
    List (Direction × Shape) :=
  properties.flatMap (propertyConversions side) ++ functions.flatMap (functionConversions side)

/-- The constructor of a wrapper converts its arguments. -/
def constructorConversions (c : ClassDecl) : List (Direction × Shape) :=
  if isConstructible c then c.constructorParams.map fun p => (.importing, p.type) else []

/-- The conversions that the code of a wrapper makes. -/
def Declaration.conversions : Declaration → List (Direction × Shape)
  | .cls c => constructorConversions c ++ memberConversions .exporting c.properties c.functions
  | .interface i =>
      memberConversions .exporting i.properties i.functions ++
        memberConversions .importing i.properties i.functions
  | _ => []

/-- The types that some conversions name without their package. -/
def Mapping.Table.spelledAll (t : Table) (conversions : List (Direction × Shape)) : List Key :=
  conversions.flatMap fun (d, s) => t.spelled d s

theorem Mapping.Table.spelledAll_append (t : Table) (front back : List (Direction × Shape)) :
    t.spelledAll (front ++ back) = t.spelledAll front ++ t.spelledAll back :=
  List.flatMap_append

/-- The types that the code of a wrapper names without their package. -/
def Wrapper.Context.spelled (ctx : Context) (d : Declaration) : List Key :=
  ctx.table.spelledAll d.conversions ++ (ownWrites d).flatMap Shape.spelled ++
    d.subclasses.flatMap fun s => (importBranch ctx s).1.spelled

end Conversions

namespace Wrapper

section Members

variable {exported : List (Shape × String)} {extra : List Shape} {erase : Bool}
variable {ctx : Context} {side : Direction} {delegate : String} {modifiers : List String} {k : Key}

/-- Conversion code spells the types that the table says. -/
theorem mem_spelled_convertIn {member : String} {e x : Expr} {s : Shape}
    (hT : Table.ofSession exported extra erase = .ok ctx.table)
    (he : e.spelled = [])
    (h : ctx.convertIn member side e s = .ok x) :
    k ∈ x.spelled ↔ k ∈ ctx.table.spelled side s := by
  rw [Table.mem_spelled_convert hT s (Outcome.mapError_eq_ok_iff.1 h), he]
  simp

/-- The conversion of the unit type names nothing. -/
theorem spelled_of_isUnit {s : Shape}
    (hT : Table.ofSession exported extra erase = .ok ctx.table)
    (h : isUnit s = true) :
    ctx.table.spelled side s = [] := by
  have hkey : s.key = Shape.unit.key := of_decide_eq_true h
  have hmem : s.key ∈ identityTypes.map Shape.key := by
    rw [hkey]
    decide
  rw [Table.spelled_eq, conversion?_ofSession hT, keyConversion?, if_pos hmem]

/-- The code of a property spells the types that its conversions spell. -/
theorem mem_spelled_wrapProperty {p : Property} {p' : PropertyDef}
    (hT : Table.ofSession exported extra erase = .ok ctx.table)
    (h : wrapProperty ctx side delegate modifiers p = .ok p') :
    k ∈ Expr.spelledAll p'.code ↔ k ∈ ctx.table.spelledAll (propertyConversions side p) := by
  obtain ⟨setter, type, getter, hsetter, -, hgetter, rfl⟩ := wrapProperty_eq_ok h
  rcases hsetter with ⟨hmutable, value, hvalue, rfl⟩ | ⟨hmutable, rfl⟩
  · simp [propertyConversions, hmutable, PropertyDef.code, Stmt.terms, Expr.spelledAll,
      Table.spelledAll, ofDelegate, mem_spelled_convertIn hT rfl hgetter,
      mem_spelled_convertIn hT rfl hvalue]
  · simp [propertyConversions, hmutable, PropertyDef.code, Expr.spelledAll, Table.spelledAll,
      mem_spelled_convertIn hT rfl hgetter]

theorem mem_spelled_passArguments {function : String} {params : List Parameter}
    {args : List Expr}
    (hT : Table.ofSession exported extra erase = .ok ctx.table)
    (h : params.mapM (passArgument ctx side function) = .ok args) :
    k ∈ Expr.spelledAll args ↔ ∃ p ∈ params, k ∈ ctx.table.spelled side.flip p.type := by
  rw [Expr.mem_spelledAll]
  refine (Outcome.exists_mem_iff_of_forall₂ (Outcome.mapM_eq_ok_iff.1 h) ?_).symm
  intro p _ a ha
  obtain ⟨value, hvalue, ha⟩ := Outcome.bind_eq_ok_iff.1 ha
  obtain rfl := Except.ok.inj ha
  rw [Expr.spelled_named, mem_spelled_convertIn hT rfl hvalue]

/-- The code of a function spells the types that its conversions spell. -/
theorem mem_spelled_wrapFunction {f : Function} {f' : FunctionDef}
    (hT : Table.ofSession exported extra erase = .ok ctx.table)
    (h : wrapFunction ctx side delegate modifiers f = .ok f') :
    k ∈ Expr.spelledAll f'.code ↔ k ∈ ctx.table.spelledAll (functionConversions side f) := by
  obtain ⟨params, args, -, hargs, hresult⟩ := wrapFunction_eq_ok h
  have hcall : k ∈ (Expr.call (ofDelegate delegate f.name) args).spelled ↔
      ∃ p ∈ f.params, k ∈ ctx.table.spelled side.flip p.type := by
    rw [← mem_spelled_passArguments hT hargs]
    simp [ofDelegate, Expr.spelled, Expr.constructed]
  have hconversions : k ∈ ctx.table.spelledAll (functionConversions side f) ↔
      (∃ p ∈ f.params, k ∈ ctx.table.spelled side.flip p.type) ∨
        k ∈ ctx.table.spelled side f.result := by
    simp [functionConversions, Table.spelledAll, List.flatMap_map, or_comm]
  rw [hconversions, ← hcall]
  rcases hresult with ⟨hunit, rfl⟩ | ⟨-, converted, type, hconverted, -, rfl⟩
  · simp [FunctionDef.code, Stmt.terms, Expr.spelledAll, spelled_of_isUnit hT hunit]
  · simp only [FunctionDef.code, Option.toList_none, Option.getD_some, List.nil_append]
    split
    · next hsource =>
        -- The result is handed on as it is, so nothing was converted.
        rw [Table.spelled_of_source_eq hT f.result (by simp [head?_resultName])
          (Outcome.mapError_eq_ok_iff.1 hconverted) hsource]
        simp [Stmt.terms, Expr.spelledAll]
    · rw [← mem_spelled_convertIn hT rfl hconverted]
      simp [Stmt.terms, Expr.spelledAll]

theorem mem_spelled_wrapProperties {properties : List Property} {properties' : List PropertyDef}
    {modifiers : Property → List String}
    (hT : Table.ofSession exported extra erase = .ok ctx.table)
    (h : List.Forall₂ (fun p p' => wrapProperty ctx side delegate (modifiers p) p = .ok p')
      properties properties') :
    k ∈ Expr.spelledAll (properties'.flatMap PropertyDef.code) ↔
      k ∈ ctx.table.spelledAll (properties.flatMap (propertyConversions side)) := by
  rw [Expr.mem_spelledAll_flatMap, ← Outcome.exists_mem_iff_of_forall₂ h fun p _ p' hp =>
    (mem_spelled_wrapProperty hT hp).symm, Table.spelledAll, List.flatMap_assoc, List.mem_flatMap]
  rfl

theorem mem_spelled_wrapFunctions {functions : List Function} {functions' : List FunctionDef}
    {modifiers : Function → List String}
    (hT : Table.ofSession exported extra erase = .ok ctx.table)
    (h : List.Forall₂ (fun f f' => wrapFunction ctx side delegate (modifiers f) f = .ok f')
      functions functions') :
    k ∈ Expr.spelledAll (functions'.flatMap FunctionDef.code) ↔
      k ∈ ctx.table.spelledAll (functions.flatMap (functionConversions side)) := by
  rw [Expr.mem_spelledAll_flatMap, ← Outcome.exists_mem_iff_of_forall₂ h fun f _ f' hf =>
    (mem_spelled_wrapFunction hT hf).symm, Table.spelledAll, List.flatMap_assoc, List.mem_flatMap]
  rfl

end Members

section Files

variable {exported : List (Shape × String)} {extra : List Shape} {erase : Bool}
variable {ctx : Context} {F : File} {k : Key}

/-- Members without a body have no code. -/
theorem code_of_abstractMembers {properties : List Property} {functions : List Function}
    {properties' : List PropertyDef} {functions' : List FunctionDef}
    (hproperties : List.Forall₂ (fun p p' => ∃ modifiers, abstractProperty ctx modifiers p = .ok p')
      properties properties')
    (hfunctions : List.Forall₂ (fun f f' => ∃ modifiers, abstractFunction ctx modifiers f = .ok f')
      functions functions') :
    properties'.flatMap PropertyDef.code = [] ∧ functions'.flatMap FunctionDef.code = [] := by
  rw [List.flatMap_eq_nil_iff, List.flatMap_eq_nil_iff]
  constructor
  · intro p' hp'
    obtain ⟨p, -, modifiers, hp⟩ := Outcome.exists_left_of_forall₂ hproperties hp'
    obtain ⟨type, -, rfl⟩ := abstractProperty_eq_ok hp
    rfl
  · intro f' hf'
    obtain ⟨f, -, modifiers, hf⟩ := Outcome.exists_left_of_forall₂ hfunctions hf'
    obtain ⟨params, result, -, -, rfl⟩ := abstractFunction_eq_ok hf
    rfl

/-- The code of a constructor spells the types of its parameters and the type arguments of the
class. -/
theorem mem_spelled_publicConstructor {c : ClassDecl} {constructor : ConstructorDef}
    (hT : Table.ofSession exported extra erase = .ok ctx.table)
    (h : publicConstructor ctx c = .ok constructor) :
    k ∈ Expr.spelledAll constructor.code ↔
      (∃ p ∈ c.constructorParams, k ∈ ctx.table.spelled .importing p.type) ∨
        k ∈ c.typeArgs.flatMap Shape.spelled := by
  obtain ⟨params, -, h⟩ := Outcome.bind_eq_ok_iff.1 h
  obtain ⟨args, hargs, h⟩ := Outcome.bind_eq_ok_iff.1 h
  obtain ⟨⟨⟩, -, h⟩ := Outcome.bind_eq_ok_iff.1 h
  obtain rfl := Except.ok.inj h
  have harguments : (∃ p ∈ c.constructorParams, k ∈ ctx.table.spelled .importing p.type) ↔
      k ∈ Expr.spelledAll args := by
    rw [Expr.mem_spelledAll]
    refine Outcome.exists_mem_iff_of_forall₂ (Outcome.mapM_eq_ok_iff.1 hargs) ?_
    intro p _ a ha
    obtain ⟨value, hvalue, ha⟩ := Outcome.bind_eq_ok_iff.1 ha
    obtain rfl := Except.ok.inj ha
    rw [Expr.spelled_named,
      Table.mem_spelled_convert hT p.type (Outcome.mapError_eq_ok_iff.1 hvalue)]
    simp
  rw [harguments]
  simp [ConstructorDef.code, Expr.spelledAll, Expr.spelled, Expr.constructed, Expr.self, or_comm]

/-- There is one public constructor, unless what a supertype is built from is not known. -/
theorem constructors_of_ofClass {c : ClassDecl}
    (h : ofClass ctx c = .ok F) :
    ∃ t rest, F.types = t :: rest ∧
      if isConstructible c then
        ∃ constructor, publicConstructor ctx c = .ok constructor ∧ t.constructors = [constructor]
      else t.constructors = [] := by
  obtain ⟨ancestry, hancestry, h⟩ := Outcome.bind_eq_ok_iff.1 h
  have hbuildable : ancestry.unbuildable.isEmpty = isConstructible c :=
    unbuildable_of_foldlM (checkedAncestry_eq_ok hancestry).2
  dsimp only at h
  rw [hbuildable] at h
  split at h
  · next hconstructible =>
      obtain ⟨constructor, hconstructor, h⟩ := Outcome.bind_eq_ok_iff.1 h
      obtain ⟨constructors, hconstructors, h⟩ := Outcome.bind_eq_ok_iff.1 h
      obtain ⟨properties, -, h⟩ := Outcome.bind_eq_ok_iff.1 h
      obtain ⟨functions, -, h⟩ := Outcome.bind_eq_ok_iff.1 h
      obtain rfl := Except.ok.inj h
      obtain rfl := Except.ok.inj hconstructors
      exact ⟨_, _, rfl, by rw [if_pos hconstructible]; exact ⟨constructor, hconstructor, rfl⟩⟩
  · next hconstructible =>
      obtain ⟨constructors, hconstructors, h⟩ := Outcome.bind_eq_ok_iff.1 h
      obtain ⟨properties, -, h⟩ := Outcome.bind_eq_ok_iff.1 h
      obtain ⟨functions, -, h⟩ := Outcome.bind_eq_ok_iff.1 h
      obtain rfl := Except.ok.inj h
      obtain rfl := Except.ok.inj hconstructors
      exact ⟨_, _, rfl, by rw [if_neg hconstructible]⟩

/-- The code of a type spells what the code of its members spells. -/
theorem mem_spelled_members {t : TypeDef} {side : Direction} {delegate : String}
    {properties : List Property} {functions : List Function}
    {propertyModifiers : Property → List String} {functionModifiers : Function → List String}
    (hT : Table.ofSession exported extra erase = .ok ctx.table)
    (hprimary : ∀ constructor ∈ t.primary, constructor.delegate = none)
    (hproperties : List.Forall₂
      (fun p p' => wrapProperty ctx side delegate (propertyModifiers p) p = .ok p')
      properties t.properties)
    (hfunctions : List.Forall₂
      (fun f f' => wrapFunction ctx side delegate (functionModifiers f) f = .ok f')
      functions t.functions) :
    k ∈ Expr.spelledAll t.code ↔
      k ∈ Expr.spelledAll (t.constructors.flatMap ConstructorDef.code) ∨
        k ∈ ctx.table.spelledAll (memberConversions side properties functions) := by
  have hnone : t.primary.toList.flatMap ConstructorDef.code = [] := by
    rw [List.flatMap_eq_nil_iff]
    intro constructor hmem
    rw [ConstructorDef.code, hprimary constructor (Option.mem_toList.1 hmem)]
    rfl
  have hmembers : ctx.table.spelledAll (memberConversions side properties functions) =
      ctx.table.spelledAll (properties.flatMap (propertyConversions side)) ++
        ctx.table.spelledAll (functions.flatMap (functionConversions side)) :=
    List.flatMap_append
  rw [TypeDef.code, hnone, hmembers, List.mem_append, ← mem_spelled_wrapProperties hT hproperties,
    ← mem_spelled_wrapFunctions hT hfunctions]
  simp [or_left_comm]

theorem mem_spelled_constructors {c : ClassDecl} {constructors : List ConstructorDef}
    (hT : Table.ofSession exported extra erase = .ok ctx.table)
    (h : if isConstructible c then
        ∃ constructor, publicConstructor ctx c = .ok constructor ∧ constructors = [constructor]
      else constructors = []) :
    k ∈ Expr.spelledAll (constructors.flatMap ConstructorDef.code) ↔
      k ∈ ctx.table.spelledAll (constructorConversions c) ∨
        k ∈ (ownWrites (.cls c)).flatMap Shape.spelled := by
  rw [constructorConversions, ownWrites]
  split at h
  · next hconstructible =>
      obtain ⟨constructor, hconstructor, rfl⟩ := h
      rw [if_pos hconstructible, if_pos hconstructible, List.flatMap_cons, List.flatMap_nil,
        List.append_nil, mem_spelled_publicConstructor hT hconstructor]
      simp [Table.spelledAll, List.flatMap_map]
  · next hconstructible =>
      rw [if_neg hconstructible, if_neg hconstructible, h]
      simp [Expr.spelledAll, Table.spelledAll]

/-- The code of a file is that of its types and of the two conversions of the wrapper. -/
theorem mem_spelled_fileOf {package name simpleName : String} {native wrapper : Shape}
    {inward outward : Expr} (types : List TypeDef) :
    k ∈ (fileOf package name native simpleName
        (types.map .type ++ [.function (importFunction name wrapper native inward),
          .function (exportFunction name wrapper native outward)])).spelled ↔
      (∃ t ∈ types, k ∈ Expr.spelledAll t.code) ∨ k ∈ inward.spelled ∨ k ∈ outward.spelled := by
  rw [File.spelled, File.code, fileOf, List.flatMap_append, Expr.spelledAll_append, List.mem_append,
    List.flatMap_map]
  refine or_congr Expr.mem_spelledAll_flatMap ?_
  simp [MemberDef.code, FunctionDef.code, importFunction, exportFunction, Expr.spelledAll]

theorem spelled_construct (name : String) :
    (Expr.call (.name name) [.self]).spelled = [] :=
  rfl

/-- The types spelled in the file of a class can be told from the class. -/
theorem mem_spelled_ofClass {c : ClassDecl}
    (hT : Table.ofSession exported extra erase = .ok ctx.table)
    (h : ofClass ctx c = .ok F) :
    k ∈ F.spelled ↔ k ∈ ctx.spelled (.cls c) := by
  obtain ⟨t, rest, htypes, hconstructors⟩ := constructors_of_ofClass h
  obtain ⟨ancestry, constructors, properties, functions, -, -, hproperties, hfunctions, rfl⟩ :=
    ofClass_eq_ok h
  obtain rfl : classType c ancestry constructors properties functions = t :=
    (List.cons.inj htypes).1
  refine (mem_spelled_fileOf [classType c ancestry constructors properties functions]).trans ?_
  have htype : k ∈ Expr.spelledAll (classType c ancestry constructors properties functions).code ↔
      _ := mem_spelled_members hT (by simp [classType, holding]) hproperties hfunctions
  rw [mem_spelled_constructors hT hconstructors, or_right_comm] at htype
  simp [htype, spelled_construct, Context.spelled, Declaration.conversions, Declaration.subclasses,
    Table.spelledAll_append, or_assoc]

theorem spelled_adapt (own field other : String) :
    (adapt own field other).spelled = [] :=
  rfl

/-- The code of an adapter spells what the conversions of the members spell. -/
theorem mem_spelled_adapter {i : InterfaceDecl} {t : TypeDef} {side : Direction}
    {name delegate : String} {held implemented : Shape}
    (hT : Table.ofSession exported extra erase = .ok ctx.table)
    (h : adapter ctx side name delegate held implemented i = .ok t) :
    k ∈ Expr.spelledAll t.code ↔
      k ∈ ctx.table.spelledAll (memberConversions side i.properties i.functions) := by
  obtain ⟨properties, functions, hproperties, hfunctions, rfl⟩ := adapter_eq_ok h
  rw [mem_spelled_members hT (by simp [holding]) hproperties hfunctions]
  simp [Expr.spelledAll]

/-- The types spelled in the file of an interface can be told from the interface. -/
theorem mem_spelled_ofInterface {i : InterfaceDecl}
    (hT : Table.ofSession exported extra erase = .ok ctx.table)
    (h : ofInterface ctx i = .ok F) :
    k ∈ F.spelled ↔ k ∈ ctx.spelled (.interface i) := by
  obtain ⟨-, shown, outward, inward, hshown, houtward, hinward, rfl⟩ := ofInterface_eq_ok h
  have hcode : shown.code = [] := by
    obtain ⟨interfaces, properties, functions, -, hproperties, hfunctions, rfl⟩ :=
      shownInterface_eq_ok hshown
    obtain ⟨hproperties, hfunctions⟩ := code_of_abstractMembers
      (hproperties.imp fun _ _ hp => ⟨_, hp⟩) (hfunctions.imp fun _ _ hf => ⟨_, hf⟩)
    simp [TypeDef.code, hproperties, hfunctions]
  refine (mem_spelled_fileOf [shown, outward, inward]).trans ?_
  simp [hcode, Expr.spelledAll, mem_spelled_adapter hT houtward, mem_spelled_adapter hT hinward,
    Context.spelled, Declaration.conversions, Declaration.subclasses, Table.spelledAll_append,
    ownWrites, spelled_adapt]

theorem mem_spelled_ofSealed {r : SealedDecl}
    (h : ofSealed ctx r = .ok F) :
    k ∈ F.spelled ↔ k ∈ ctx.spelled (.sealed r) := by
  obtain ⟨base, hbase, rfl⟩ := ofSealed_eq_ok h
  have hcode : base.code = [] := by
    obtain ⟨properties, functions, hproperties, hfunctions, rfl⟩ := sealedType_eq_ok hbase
    obtain ⟨hproperties, hfunctions⟩ := code_of_abstractMembers
      (hproperties.imp fun _ _ hp => ⟨_, hp⟩) (hfunctions.imp fun _ _ hf => ⟨_, hf⟩)
    simp [TypeDef.code, hproperties, hfunctions]
  refine (mem_spelled_fileOf [base]).trans ?_
  simp [hcode, Expr.spelledAll, Expr.spelled, importDispatch, exportDispatch, List.flatMap_map,
    Context.spelled, Declaration.conversions, Declaration.subclasses, Table.spelledAll, ownWrites,
    importBranch, or_comm]

theorem spelledAll_entriesObject (holder native exportName : String) (wrapper : Shape)
    (accessors : List String) :
    Expr.spelledAll (entriesObject holder native exportName wrapper accessors).code = [] := by
  simp [TypeDef.code, entriesObject, Expr.spelledAll_eq_nil_iff, PropertyDef.code, entryRef]

theorem spelledAll_valuesFunction (holder exportName : String) (wrapper : Shape)
    (accessors : List String) :
    Expr.spelledAll (valuesFunction holder exportName wrapper accessors).code = [] := by
  have hlabels : ∀ a ∈ accessors.map (entryRef holder), a.label? = none := by
    simp [entryRef, Expr.label?]
  simp [FunctionDef.code, valuesFunction, Expr.spelledAll_eq_nil_iff, Expr.spelled,
    Expr.constructed_eq_nil hlabels, entryRef]

theorem spelledAll_valueOfFunction (holder exportName : String) (wrapper : Shape)
    (accessors : List String) :
    Expr.spelledAll (valueOfFunction holder exportName wrapper accessors).code = [] := by
  rw [Expr.spelledAll_eq_nil_iff]
  intro x hx
  have hcases : (∃ a ∈ accessors, x = entryRef holder a) ∨ x = .name "null" := by
    simpa [valueOfFunction, FunctionDef.code, Stmt.terms, List.flatMap_map, eq_comm] using hx
  rcases hcases with ⟨a, -, rfl⟩ | rfl
  · rfl
  · rfl

/-- The code of an enumeration spells no types. -/
theorem spelled_ofEnumeration {e : EnumDecl}
    (h : ofEnumeration ctx e = .ok F) :
    F.spelled = [] := by
  obtain rfl := ofEnumeration_eq_ok h
  simp only [File.spelled, File.code, fileOf, List.flatMap_cons, List.flatMap_nil, MemberDef.code,
    Expr.spelledAll_append, spelledAll_entriesObject, spelledAll_valuesFunction,
    spelledAll_valueOfFunction]
  rfl

/-- The types that the code of a file names without their package. -/
theorem mem_spelled_ofDeclaration {d : Declaration}
    (hT : Table.ofSession exported extra erase = .ok ctx.table)
    (h : ofDeclaration ctx d = .ok F) :
    k ∈ F.spelled ↔ k ∈ ctx.spelled d := by
  cases d with
  | cls c => exact mem_spelled_ofClass hT h
  | interface i => exact mem_spelled_ofInterface hT h
  | sealed r => exact mem_spelled_ofSealed h
  | enumeration e =>
      rw [spelled_ofEnumeration h]
      rfl
  | other kind header => simp [ofDeclaration] at h

end Files

end Wrapper

section Sessions

variable {ctx : Context} {r : Request} {F : File} {k : Key}

/-- What gives the simple name of a type to another type: a type that the file declares, the native
type, or a type that is imported. -/
theorem Request.captures_iff_of_build
    (h : r.build ctx = .ok F) :
    F.Captures k ↔
      (k.name ∈ r.typeNames ∧ k.package ≠ r.exportPackage ctx.erase) ∨
      (k.name = Name.nativeAlias r.nativeKey.name ∧ k.qualified ≠ r.nativeKey.qualified) ∨
      ∃ l ∈ Namer.unaliased F, IsForeign F.package l ∧ F.ComesFirst l ∧
        Namer.importedName l.qualified = k.name ∧ l.qualified ≠ k.qualified := by
  obtain ⟨hpackage, haliases⟩ := Request.heading_of_build h
  constructor
  · rintro (⟨hdeclares, hother⟩ | ⟨hmem, hother⟩)
    · rw [hpackage] at hother
      exact .inl ⟨(Request.declares_iff_of_build h _).1 hdeclares, hother⟩
    · rcases File.mem_introduced.1 hmem with ⟨himport, hname⟩ | halias
      · obtain ⟨l, hl, rfl, hforeign, hfirst⟩ := Namer.mem_imports_iff_comesFirst.1 himport
        exact .inr (.inr ⟨l, hl, hforeign, hfirst, hname, hother⟩)
      · rw [haliases, List.mem_singleton] at halias
        obtain ⟨rfl, hname⟩ := Prod.mk.inj halias
        exact .inr (.inl ⟨hname, Ne.symm hother⟩)
  · rintro (⟨hdeclares, hother⟩ | ⟨hname, hother⟩ | ⟨l, hl, hforeign, hfirst, hname, hother⟩)
    · rw [← hpackage] at hother
      exact .declared ((Request.declares_iff_of_build h _).2 hdeclares) hother
    · refine .introduced (File.mem_introduced.2 (.inr ?_)) (Ne.symm hother)
      rw [haliases, hname]
      exact List.mem_singleton_self _
    · have himport := Namer.mem_imports_iff_comesFirst.2 ⟨l, hl, rfl, hforeign, hfirst⟩
      exact .introduced (File.mem_introduced.2 (.inl ⟨himport, hname⟩)) hother

/-- The code of a file names the types that its conversions call for, and each of these names stands
for the type that is meant unless the file gives it to a type of its own, to the native type or to
an imported type. -/
theorem simple_names_kept_iff {requests : List Request} {extra : List Shape} {erase : Bool}
    (hstart : Session.start requests extra erase = .ok ctx)
    (hF : (r.fulfil ctx).file = some F) :
    ∃ d, r.subject = .ok d ∧
      (∀ k, k ∈ F.spelled ↔ k ∈ ctx.spelled d) ∧
      ((∀ k ∈ F.spelled, ¬ F.Captures k) ↔
        ∀ k ∈ ctx.spelled d,
          (k.name ∈ r.typeNames → k.package = r.exportPackage erase) ∧
          (k.name = Name.nativeAlias r.nativeKey.name → k.qualified = r.nativeKey.qualified) ∧
          ∀ l ∈ Namer.unaliased F, IsForeign F.package l → F.ComesFirst l →
            Namer.importedName l.qualified = k.name → l.qualified = k.qualified) := by
  have hbuild := Request.build_of_fulfil hF
  obtain ⟨d, hd, hfile⟩ := Outcome.bind_eq_ok_iff.1 hbuild
  obtain ⟨known, -, hT, rfl⟩ := Session.start_eq_ok hstart
  have hspelled : ∀ k, k ∈ F.spelled ↔ k ∈ ctx.spelled d :=
    fun k => mem_spelled_ofDeclaration hT hfile
  refine ⟨d, hd, hspelled, forall_congr' fun k => ?_⟩
  rw [hspelled, Request.captures_iff_of_build hbuild]
  refine imp_congr_right fun _ => ?_
  simp only [not_or, not_and, not_not, not_exists]

end Sessions

section Reports

/-- A report with a cause that can be set, and a listener. -/
def report : Request :=
  .declaration
    (.cls { package := "app", simpleName := "Report",
            properties :=
              [{ name := "cause", type := .kotlin "Throwable", isMutable := true },
               { name := "listener", type := .functionOf [.long] .unit }] })
    []

theorem file_fulfil_report :
    ∃ ctx F, Session.start [report] [] false = .ok ctx ∧ (report.fulfil ctx).file = some F ∧
      F.aliases = [("app.Report", "CommonReport")] ∧
      (∀ s ∈ F.references, IsForeign F.package s.key → s.qualified = "app.Report") ∧
      (∀ name ∈ ["Error", "Throwable", "Double"], ⟨"kotlin", name⟩ ∈ F.spelled) ∧
      ∀ k ∈ F.spelled, k.name ∉ ["Report", "CommonReport"] :=
  exists_file_of_any (by decide +kernel)

theorem simple_names_kept_iff_of_report :
    ∃ ctx F, Session.start [report] [] false = .ok ctx ∧ (report.fulfil ctx).file = some F ∧
      (∀ name ∈ ["Error", "Throwable", "Double"], ⟨"kotlin", name⟩ ∈ F.spelled) ∧
      ∀ k ∈ F.spelled, ¬ F.Captures k := by
  obtain ⟨ctx, F, hctx, hF, haliases, hforeign, hnames, hown⟩ := file_fulfil_report
  refine ⟨ctx, F, hctx, hF, hnames, ?_⟩
  obtain ⟨d, -, hspelled, hkept⟩ := simple_names_kept_iff hctx hF
  have hown : ∀ k ∈ ctx.spelled d, k.name ≠ "Report" ∧ k.name ≠ "CommonReport" := by
    intro k hk
    simpa using hown k ((hspelled k).2 hk)
  refine hkept.2 fun k hk => ⟨fun h => ?_, fun h => absurd h (hown k hk).2, fun l hl hl' => ?_⟩
  · exact absurd (List.mem_singleton.1 h) (hown k hk).1
  · -- The only type that would be imported is the native one, which has an alias.
    obtain ⟨hkey, halias⟩ := Namer.mem_unaliased.1 hl
    obtain ⟨s, hs, -, rfl, -⟩ := Namer.mem_keys.1 hkey
    rw [haliases, Dictionary.has_singleton_eq_false_iff] at halias
    exact absurd (hforeign s hs hl') halias

/-- A class that is called as the errors that its member is shown as. -/
def mishap : Request :=
  .declaration
    (.cls { package := "shop", simpleName := "Error",
            properties := [{ name := "cause", type := .kotlin "Throwable" }] })
    []

/-- The wrapper is constructed where an error is meant. -/
theorem exists_captured_name :
    ∃ requests ctx, Session.start requests [] false = .ok ctx ∧
      ∃ r ∈ requests, ∃ F, (r.fulfil ctx).file = some F ∧ ∃ k ∈ F.spelled, F.Captures k := by
  obtain ⟨ctx, F, hctx, hF, hspelled, hdeclares, hpackage⟩ :
      ∃ ctx F, Session.start [mishap] [] false = .ok ctx ∧ (mishap.fulfil ctx).file = some F ∧
        Shape.error.key ∈ F.spelled ∧ F.Declares Shape.error.name ∧ F.package = "shop.js" :=
    exists_file_of_any (by decide +kernel)
  refine ⟨_, ctx, hctx, mishap, List.mem_singleton_self _, F, hF, _, hspelled, ?_⟩
  exact .declared hdeclares (by rw [hpackage]; decide)

end Reports

end Facade
