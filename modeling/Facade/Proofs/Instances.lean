import Facade.Proofs.FileContents
import Facade.Proofs.Plan
import Facade.Proofs.WrittenNames

/-!
# Instances of generic declarations

An instance is its template with every type parameter replaced by the type argument of the same
position, in every place that holds a type, and all parameters at once.  Nothing else of the
template changes.

**Input.**  A declaration with distinct type parameters, and any list of type arguments.

**Algorithm.**  Parameters and arguments are paired by position; every type is walked once, and what
replaces a parameter is not walked again.

**Results.**
* `get?_ofArgs`: the binding of a list of parameters, by position.
* `replaced_substitute`: the substitution of a type replaces the type parameters in it.
* `parameterFree_of_replaced`: no type parameter is left if the arguments bring in none.
* `instances_substitute_everywhere`: what an instance is, and when there is none.
-/

namespace Facade

section Replacement

variable {params : List String} {args : List Shape}

/-- The second shape is the first one with the type parameters replaced, all at once, by the
arguments of the same positions. -/
inductive Shape.Replaced (params : List String) (args : List Shape) : Shape → Shape → Prop
  /-- A type parameter gives its argument, which is nullable if the parameter or the argument is. -/
  | param {i : Nat} {name : String} {arg : Shape} {nullable : Bool}
      (hparam : params[i]? = some name)
      (harg : args[i]? = some arg) :
      Replaced params args ⟨name, "", [], nullable⟩ (arg.withNullable (arg.nullable || nullable))
  /-- Any other type variable stays. -/
  | unbound {name : String} {nullable : Bool}
      (hname : name ∉ params) :
      Replaced params args ⟨name, "", [], nullable⟩ ⟨name, "", [], nullable⟩
  /-- A type keeps its name, and its type arguments are replaced one by one. -/
  | type {name package : String} {inner inner' : List Shape} {nullable : Bool}
      (htype : package ≠ "" ∨ inner ≠ [])
      (hinner : List.Forall₂ (Replaced params args) inner inner') :
      Replaced params args ⟨name, package, inner, nullable⟩ ⟨name, package, inner', nullable⟩

/-- The parameter of a function or constructor with its type replaced. -/
structure Parameter.Replaced (params : List String) (args : List Shape) (p p' : Parameter) :
    Prop where
  name : p'.name = p.name
  type : p.type.Replaced params args p'.type

/-- The property with its type replaced. -/
structure Property.Replaced (params : List String) (args : List Shape) (p p' : Property) :
    Prop where
  name : p'.name = p.name
  isMutable : p'.isMutable = p.isMutable
  isOverride : p'.isOverride = p.isOverride
  type : p.type.Replaced params args p'.type

/-- The function with its types replaced. -/
structure Function.Replaced (params : List String) (args : List Shape) (f f' : Function) :
    Prop where
  name : f'.name = f.name
  isOverride : f'.isOverride = f.isOverride
  result : f.result.Replaced params args f'.result
  params : List.Forall₂ (Parameter.Replaced params args) f.params f'.params

/-- The supertype with its types replaced; what is handed to its constructor stays unknown if it is
not known. -/
structure Supertype.Replaced (params : List String) (args : List Shape) (s s' : Supertype) :
    Prop where
  isClass : s'.isClass = s.isClass
  type : s.type.Replaced params args s'.type
  arguments : Option.Rel (List.Forall₂ (Parameter.Replaced params args)) s.arguments s'.arguments

/-- The instance of what classes and interfaces have. -/
structure Template.Instance (args : List Shape) (exportName : Option String) (t t' : Template) :
    Prop where
  header : t'.toHeader = t.toHeader
  typeParams : t'.typeParams = []
  typeArgs : t'.typeArgs = args
  exportName : t'.exportName = exportName
  supers : List.Forall₂ (Supertype.Replaced t.typeParams args) t.supers t'.supers
  properties : List.Forall₂ (Property.Replaced t.typeParams args) t.properties t'.properties
  functions : List.Forall₂ (Function.Replaced t.typeParams args) t.functions t'.functions

namespace Declaration

/-- The second declaration is the instance of the first one. -/
inductive Instance (args : List Shape) (exportName : Option String) :
    Declaration → Declaration → Prop
  | cls {c c' : ClassDecl}
      (htemplate : Template.Instance args exportName c.toTemplate c'.toTemplate)
      (hconstructor : List.Forall₂ (Parameter.Replaced c.typeParams args) c.constructorParams
        c'.constructorParams) :
      Instance args exportName (.cls c) (.cls c')
  | interface {i i' : InterfaceDecl}
      (htemplate : Template.Instance args exportName i.toTemplate i'.toTemplate) :
      Instance args exportName (.interface i) (.interface i')

/-- Whether the declaration can have type parameters. -/
def isTemplate : Declaration → Bool
  | cls _ => true
  | interface _ => true
  | _ => false

end Declaration

/-- The types of a supertype: its own and those of what is handed to its constructor. -/
def Supertype.types (s : Supertype) : List Shape :=
  s.type :: (s.arguments.getD []).map Parameter.type

def Template.types (t : Template) : List Shape :=
  t.typeArgs ++ t.supers.flatMap Supertype.types ++ memberTypes t.properties t.functions

/-- All types that stand anywhere in a class or interface. -/
def Declaration.types : Declaration → List Shape
  | cls c => c.toTemplate.types ++ c.constructorParams.map Parameter.type
  | interface i => i.toTemplate.types
  | _ => []

/-- The shape is one of the type parameters. -/
def Shape.IsParameter (params : List String) (s : Shape) : Prop :=
  s.isVariable = true ∧ s.name ∈ params

instance (params : List String) (s : Shape) : Decidable (s.IsParameter params) :=
  inferInstanceAs (Decidable (_ ∧ _))

/-- No type parameter occurs in the shape, at any depth. -/
def Shape.ParameterFree (params : List String) (s : Shape) : Prop :=
  ∀ u ∈ s.parts, ¬ u.IsParameter params

instance (params : List String) (s : Shape) : Decidable (s.ParameterFree params) :=
  inferInstanceAs (Decidable (∀ u ∈ s.parts, ¬ u.IsParameter params))

end Replacement

section Types

variable {params : List String} {args : List Shape}

/-- A type is free of parameters exactly if it is none and its arguments are free of them. -/
theorem parameterFree_iff {s : Shape} :
    s.ParameterFree params ↔ ¬ s.IsParameter params ∧ ∀ a ∈ s.args, a.ParameterFree params := by
  simp only [Shape.ParameterFree, Mapping.parts_eq s, List.forall_mem_cons, List.forall_mem_flatMap]

theorem parameterFree_withNullable {s : Shape}
    (h : s.ParameterFree params) (nullable : Bool) :
    (s.withNullable nullable).ParameterFree params := by
  obtain ⟨hself, hinner⟩ := parameterFree_iff.1 h
  exact parameterFree_iff.2 ⟨hself, hinner⟩

/-- A parameter is bound to the argument at its position. -/
theorem get?_ofArgs {name : String} {arg : Shape}
    (hdistinct : params.Nodup)
    (hlength : params.length = args.length) :
    (Dictionary.ofList (params.zip args)).get? name = some arg ↔
      ∃ i : Nat, params[i]? = some name ∧ args[i]? = some arg := by
  have hfst : (params.zip args).map Prod.fst = params := List.map_fst_zip hlength.le
  have hmem : (name, arg) ∈ params.zip args ↔
      ∃ i : Nat, params[i]? = some name ∧ args[i]? = some arg := by
    simp only [List.mem_iff_getElem?, List.getElem?_zip_eq_some]
  rw [← hmem]
  exact ⟨Dictionary.mem_of_get?_ofList, Dictionary.get?_ofList_of_mem (hfst.symm ▸ hdistinct)⟩

theorem get?_ofArgs_eq_none_iff {name : String}
    (hlength : params.length = args.length) :
    (Dictionary.ofList (params.zip args)).get? name = none ↔ name ∉ params := by
  have hfst : (params.zip args).map Prod.fst = params := List.map_fst_zip hlength.le
  rw [Dictionary.get?_ofList_eq_none_iff, ← not_iff_not, not_not]
  nth_rewrite 2 [← hfst]
  simp [eq_comm]

/-- The substitution of a type replaces all type parameters in it at once. -/
theorem replaced_substitute
    (hdistinct : params.Nodup)
    (hlength : params.length = args.length) (s : Shape) :
    s.Replaced params args (s.substitute (Dictionary.ofList (params.zip args))) := by
  induction s using Shape.induction with
  | step name package inner nullable ih =>
      rw [Shape.substitute]
      split
      · next hvariable =>
          obtain ⟨rfl, rfl⟩ : package = "" ∧ inner = [] := by simpa using hvariable
          split
          · next arg hget =>
              obtain ⟨i, hparam, harg⟩ := (get?_ofArgs hdistinct hlength).1 hget
              exact .param hparam harg
          · next hget => exact .unbound ((get?_ofArgs_eq_none_iff hlength).1 hget)
      · next htype =>
          rw [Shape.substituteAll_eq_map]
          refine .type ?_ (List.forall₂_map_right_iff.2 (List.forall₂_same.2 ih))
          by_contra hnot
          simp only [ne_eq, not_or, not_not] at hnot
          exact htype (by simp [hnot])

/-- What replaces a type parameter is not searched for type parameters again, so the arguments must
not bring them in. -/
theorem parameterFree_of_replaced {s t : Shape}
    (hargs : ∀ arg ∈ args, arg.ParameterFree params)
    (h : s.Replaced params args t) :
    t.ParameterFree params := by
  induction s using Shape.induction generalizing t with
  | step name package inner nullable ih =>
      cases h with
      | param hparam harg =>
          exact parameterFree_withNullable (hargs _ (List.mem_of_getElem? harg)) _
      | unbound hname =>
          refine parameterFree_iff.2 ⟨fun hparam => hname hparam.2, ?_⟩
          exact List.forall_mem_nil _
      | type htype hinner =>
          refine parameterFree_iff.2 ⟨?_, ?_⟩
          · rintro ⟨hvariable, -⟩
            obtain ⟨hpackage, hnil⟩ : package = "" ∧ _ = [] := by
              simpa [Shape.isVariable] using hvariable
            subst hnil
            cases hinner
            exact htype.elim (absurd hpackage) (absurd rfl)
          · intro t' ht'
            obtain ⟨s', hs', hreplaced⟩ := Outcome.exists_left_of_forall₂ hinner ht'
            exact ih s' hs' hreplaced

end Types

section Places

variable {params : List String} {args : List Shape}
  (hdistinct : params.Nodup) (hlength : params.length = args.length)

include hdistinct hlength

theorem Parameter.replaced_substitute (p : Parameter) :
    p.Replaced params args (p.substitute (Dictionary.ofList (params.zip args))) :=
  ⟨rfl, Facade.replaced_substitute hdistinct hlength p.type⟩

theorem Parameter.replaced_substituteAll (ps : List Parameter) :
    List.Forall₂ (Parameter.Replaced params args) ps
      (ps.map (Parameter.substitute (Dictionary.ofList (params.zip args)))) :=
  List.forall₂_map_right_iff.2
    (List.forall₂_same.2 fun p _ => p.replaced_substitute hdistinct hlength)

theorem Property.replaced_substitute (p : Property) :
    p.Replaced params args (p.substitute (Dictionary.ofList (params.zip args))) :=
  ⟨rfl, rfl, rfl, Facade.replaced_substitute hdistinct hlength p.type⟩

/-- A substitution replaces all types of a function. -/
theorem Function.replaced_substitute (f : Function) :
    f.Replaced params args (f.substitute (Dictionary.ofList (params.zip args))) :=
  ⟨rfl, rfl, Facade.replaced_substitute hdistinct hlength f.result,
    Parameter.replaced_substituteAll hdistinct hlength f.params⟩

theorem Supertype.replaced_substitute (s : Supertype) :
    s.Replaced params args (s.substitute (Dictionary.ofList (params.zip args))) where
  isClass := rfl
  type := Facade.replaced_substitute hdistinct hlength s.type
  arguments := by
    rw [Supertype.substitute]
    cases s.arguments with
    | none => exact .none
    | some ps => exact .some (Parameter.replaced_substituteAll hdistinct hlength ps)

omit hdistinct hlength

/-- Instantiating replaces the parameters everywhere in a template. -/
theorem instance_instantiate {t : Template}
    (hdistinct : t.typeParams.Nodup)
    (hlength : t.typeParams.length = args.length) (exportName : Option String) :
    Template.Instance args exportName t
      (t.instantiate (Dictionary.ofList (t.typeParams.zip args)) args exportName) where
  header := rfl
  typeParams := rfl
  typeArgs := rfl
  exportName := rfl
  supers := List.forall₂_map_right_iff.2
    (List.forall₂_same.2 fun s _ => s.replaced_substitute hdistinct hlength)
  properties := List.forall₂_map_right_iff.2
    (List.forall₂_same.2 fun p _ => p.replaced_substitute hdistinct hlength)
  functions := List.forall₂_map_right_iff.2
    (List.forall₂_same.2 fun f _ => f.replaced_substitute hdistinct hlength)

end Places

section Closedness

variable {params : List String} {args : List Shape}
  (hargs : ∀ arg ∈ args, arg.ParameterFree params)

include hargs

theorem parameterFree_of_params {ps ps' : List Parameter}
    (h : List.Forall₂ (Parameter.Replaced params args) ps ps') :
    ∀ t ∈ ps'.map Parameter.type, t.ParameterFree params := by
  intro t ht
  obtain ⟨p', hp', rfl⟩ := List.mem_map.1 ht
  obtain ⟨p, -, hp⟩ := Outcome.exists_left_of_forall₂ h hp'
  exact parameterFree_of_replaced hargs hp.type

theorem parameterFree_of_supertype {s s' : Supertype}
    (h : s.Replaced params args s') :
    ∀ t ∈ s'.types, t.ParameterFree params := by
  refine List.forall_mem_cons.2 ⟨parameterFree_of_replaced hargs h.type, ?_⟩
  have hrel := h.arguments
  generalize s.arguments = arguments, s'.arguments = arguments' at hrel
  cases hrel with
  | none => exact List.forall_mem_nil _
  | some hparams => exact parameterFree_of_params hargs hparams

/-- Members whose types are replaced mention no parameter. -/
theorem parameterFree_of_members {properties properties' : List Property}
    {functions functions' : List Function}
    (hproperties : List.Forall₂ (Property.Replaced params args) properties properties')
    (hfunctions : List.Forall₂ (Function.Replaced params args) functions functions') :
    ∀ t ∈ memberTypes properties' functions', t.ParameterFree params := by
  refine List.forall_mem_append.2 ⟨?_, ?_⟩
  · intro t ht
    obtain ⟨p', hp', rfl⟩ := List.mem_map.1 ht
    obtain ⟨p, -, hp⟩ := Outcome.exists_left_of_forall₂ hproperties hp'
    exact parameterFree_of_replaced hargs hp.type
  · intro t ht
    obtain ⟨f', hf', ht⟩ := List.mem_flatMap.1 ht
    obtain ⟨f, -, hf⟩ := Outcome.exists_left_of_forall₂ hfunctions hf'
    rcases List.mem_cons.1 ht with rfl | ht
    · exact parameterFree_of_replaced hargs hf.result
    · exact parameterFree_of_params hargs hf.params t ht

omit hargs

theorem parameterFree_of_template {t t' : Template} {exportName : Option String}
    (hargs : ∀ arg ∈ args, arg.ParameterFree t.typeParams)
    (h : Template.Instance args exportName t t') :
    ∀ type ∈ t'.types, type.ParameterFree t.typeParams := by
  rw [Template.types, h.typeArgs]
  refine List.forall_mem_append.2 ⟨List.forall_mem_append.2 ⟨hargs, ?_⟩, ?_⟩
  · intro type htype
    obtain ⟨s', hs', htype⟩ := List.mem_flatMap.1 htype
    obtain ⟨s, -, hs⟩ := Outcome.exists_left_of_forall₂ h.supers hs'
    exact parameterFree_of_supertype hargs hs type htype
  · exact parameterFree_of_members hargs h.properties h.functions

/-- An instance mentions no parameter if its arguments do not. -/
theorem parameterFree_of_instance {d d' : Declaration} {exportName : Option String}
    (hargs : ∀ arg ∈ args, arg.ParameterFree d.typeParams)
    (h : Declaration.Instance args exportName d d') :
    ∀ type ∈ d'.types, type.ParameterFree d.typeParams := by
  cases h with
  | cls htemplate hconstructor =>
      exact List.forall_mem_append.2
        ⟨parameterFree_of_template hargs htemplate, parameterFree_of_params hargs hconstructor⟩
  | interface htemplate => exact parameterFree_of_template hargs htemplate

end Closedness

namespace Declaration

/-- What instantiating a declaration gives. -/
structure InstanceContract (d : Declaration) (args : List Shape) (exportName : Option String) :
    Prop where
  /-- Only classes and interfaces have instances. -/
  unsupported : d.isTemplate = false → d.instantiate args exportName =
    .error { cause := .notGeneric d.header.simpleName, location := d.origin }
  /-- A class or interface is refused exactly if the numbers of parameters and arguments differ, and
  the refusal says where it comes from. -/
  arity : d.isTemplate = true → ∀ r, d.instantiate args exportName = .error r ↔
    d.typeParams.length ≠ args.length ∧
      r = { cause := .arity d.typeParams args.length, location := d.origin }
  /-- In all other cases there is an instance.  No type parameter is left in it, unless an argument
  mentions one. -/
  instantiated : d.isTemplate = true → d.typeParams.length = args.length →
    ∃ d', d.instantiate args exportName = .ok d' ∧ Instance args exportName d d' ∧
      ((∀ arg ∈ args, arg.ParameterFree d.typeParams) →
        ∀ type ∈ d'.types, type.ParameterFree d.typeParams)

theorem ofArgs?_of_length {params : List String} {args : List Shape}
    (h : params.length = args.length) :
    Binding.ofArgs? params args = .ok (Dictionary.ofList (params.zip args)) := by
  rw [Binding.ofArgs?, if_pos h]

theorem ofArgs?_of_length_ne {params : List String} {args : List Shape}
    (h : params.length ≠ args.length) (origin : Option Location) :
    (Binding.ofArgs? params args).mapError (·.placed origin none) =
      .error { cause := .arity params args.length, location := origin } := by
  rw [Binding.ofArgs?, if_neg h]
  rfl

/-- The wrong number of arguments is refused. -/
theorem instantiate_of_length_ne {d : Declaration} {args : List Shape}
    (htemplate : d.isTemplate = true)
    (hlength : d.typeParams.length ≠ args.length) (exportName : Option String) :
    d.instantiate args exportName =
      .error { cause := .arity d.typeParams args.length, location := d.origin } := by
  cases d with
  | cls c =>
      have hargs : (Binding.ofArgs? c.typeParams args).mapError (·.placed c.origin none) = _ :=
        ofArgs?_of_length_ne hlength c.origin
      rw [instantiate, hargs]
      rfl
  | interface i =>
      have hargs : (Binding.ofArgs? i.typeParams args).mapError (·.placed i.origin none) = _ :=
        ofArgs?_of_length_ne hlength i.origin
      rw [instantiate, hargs]
      rfl
  | _ => simp [isTemplate] at htemplate

/-- The right number of arguments gives an instance. -/
theorem exists_instance {d : Declaration} {args : List Shape}
    (hdistinct : d.typeParams.Nodup)
    (htemplate : d.isTemplate = true)
    (hlength : d.typeParams.length = args.length) (exportName : Option String) :
    ∃ d', d.instantiate args exportName = .ok d' ∧ Instance args exportName d d' := by
  cases d with
  | cls c =>
      have hargs : Binding.ofArgs? c.typeParams args = _ := ofArgs?_of_length hlength
      refine ⟨_, by rw [instantiate, hargs]; rfl, .cls ?_ ?_⟩
      · exact instance_instantiate hdistinct hlength exportName
      · exact Parameter.replaced_substituteAll hdistinct hlength c.constructorParams
  | interface i =>
      have hargs : Binding.ofArgs? i.typeParams args = _ := ofArgs?_of_length hlength
      refine ⟨_, by rw [instantiate, hargs]; rfl, .interface ?_⟩
      exact instance_instantiate hdistinct hlength exportName
  | _ => simp [isTemplate] at htemplate

/-- A generic declaration is instantiated exactly with the right number of arguments, and its
parameters are then replaced everywhere. -/
theorem instances_substitute_everywhere
    (d : Declaration) (args : List Shape) (exportName : Option String)
    (hdistinct : d.typeParams.Nodup) :
    InstanceContract d args exportName where
  unsupported hkind := by
    cases d with
    | cls c => simp [isTemplate] at hkind
    | interface i => simp [isTemplate] at hkind
    | _ => rfl
  arity htemplate r := by
    by_cases hlength : d.typeParams.length = args.length
    · obtain ⟨d', hd', -⟩ := exists_instance hdistinct htemplate hlength exportName
      simp [hd', hlength]
    · rw [instantiate_of_length_ne htemplate hlength]
      simp [hlength, eq_comm]
  instantiated htemplate hlength := by
    obtain ⟨d', hd', hinstance⟩ := exists_instance hdistinct htemplate hlength exportName
    exact ⟨d', hd', hinstance, fun hargs => parameterFree_of_instance hargs hinstance⟩

/-- A class with type parameters in all places that hold types. -/
def pairClass : ClassDecl where
  package := "app"
  simpleName := "Pair"
  typeParams := ["A", "B"]
  supers := [
    { type := ⟨"Base", "app", [{ name := "A" }], false⟩, isClass := true,
      arguments := some [⟨"first", { name := "A" }⟩] },
    { type := ⟨"Shown", "app", [{ name := "B" }], false⟩ }]
  constructorParams := [⟨"first", { name := "A" }⟩, ⟨"second", { name := "B" }⟩]
  properties := [{ name := "second", type := { name := "B", nullable := true }, isMutable := true }]
  functions := [
    { name := "swap", result := ⟨"Pair", "app", [{ name := "B" }, { name := "A" }], false⟩,
      params := [⟨"other", { name := "B" }⟩] }]

/-- Type parameters that are bound to each other are swapped, and none is left if they are bound to
other types. -/
theorem instances_substitute_everywhere_of_pair :
    pairClass.typeParams.Nodup ∧
      (∃ d', (cls pairClass).instantiate [{ name := "B" }, { name := "A" }] none = .ok d' ∧
        Instance [{ name := "B" }, { name := "A" }] none (.cls pairClass) d') ∧
      ∃ d', (cls pairClass).instantiate [.string, .listOf .string] (some "Strings") = .ok d' ∧
        ∀ type ∈ d'.types, type.ParameterFree ["A", "B"] := by
  have hdistinct : pairClass.typeParams.Nodup := by decide
  refine ⟨hdistinct, ?_, ?_⟩
  · obtain ⟨d', hd', hinstance, -⟩ := (instances_substitute_everywhere (.cls pairClass)
      [{ name := "B" }, { name := "A" }] none hdistinct).instantiated rfl rfl
    exact ⟨d', hd', hinstance⟩
  · obtain ⟨d', hd', -, hfree⟩ := (instances_substitute_everywhere (.cls pairClass)
      [.string, .listOf .string] (some "Strings") hdistinct).instantiated rfl rfl
    exact ⟨d', hd', hfree (by decide)⟩

end Declaration
end Facade
