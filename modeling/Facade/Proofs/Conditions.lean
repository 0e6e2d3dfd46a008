import Facade.Proofs.Faults
import Facade.Proofs.FileContents

/-!
# Conditions of a declaration

A declaration can be wrapped if it meets a list of conditions; the first one that it does not meet
decides what is said about it.  Wrapping makes each check where it needs the result, often more than
once and in a different form, but it never comes to another verdict.

**Input.**  A declaration and the context of its session.

**Algorithm.**  `Declaration.conditions` lists the conditions in the order in which they decide, and
`Declaration.writes` the types that the code of the wrapper writes out.  Every step of wrapping is
compared with the conditions it stands for, up to these types.

**Results.**
* `check_eq_ok_iff` and `check_eq_error_iff`: what a condition asks for, and what is said if it is
  not met.
* `agrees_ofDeclaration`: a declaration is wrapped exactly if it meets its conditions and the types
  that are written out can be read.
* `hasOverlong_of_mem_writes`: in a session these are types whose numbers stand in the declaration.
-/

namespace Facade
namespace Wrapper

open Code Mapping Outcome

/-- What a declaration has to meet. -/
inductive Condition where
  /-- It has no open type parameters. -/
  | closed (d : Template)
  /-- The type of a member can be shown. -/
  | shown (member : String) (type : Shape)
  /-- The class that it extends is a sealed class of the session. -/
  | sealedBase (d : Template) (base : Key)
  /-- Entries are named once, and their holder is no other declaration. -/
  | entries (e : EnumDecl)
  /-- There is a wrapper for its kind. -/
  | knownKind (kind : String) (header : Header)

namespace Condition

variable {ctx : Context}

/-- The condition is met. -/
def Holds (ctx : Context) : Condition → Prop
  | closed d => d.typeParams = []
  | shown _ type => ∃ s', ctx.table.exported type = .ok s'
  | sealedBase _ base => base ∈ ctx.sealedBases
  | entries e =>
      e.entries.Nodup ∧ ctx.declares e.package (Name.entriesHolder e.simpleName) = false
  | knownKind _ _ => False

/-- The condition is not met, for the given reason. -/
inductive Violated (ctx : Context) : Condition → Failure → Prop
  | closed {d : Template}
      (h : d.typeParams ≠ []) :
      Violated ctx (.closed d)
        (.refused { cause := .openGenerics d.simpleName d.typeParams, location := d.origin })
  | shown {member : String} {type : Shape} {fault : Fault}
      (h : ctx.table.exported type = .error fault) :
      Violated ctx (.shown member type) ((Failure.ofFault fault).placed none (some member))
  | sealedBase {d : Template} {base : Key}
      (h : base ∉ ctx.sealedBases) :
      Violated ctx (.sealedBase d base)
        (.refused { cause := .unsealedBase d.simpleName base, location := d.origin })
  | repeatedEntries {e : EnumDecl}
      (h : ¬ e.entries.Nodup) :
      Violated ctx (.entries e)
        (.refused
          { cause := .repeatedEntries e.simpleName (repeated e.entries), location := e.origin })
  | holder {e : EnumDecl}
      (h : e.entries.Nodup)
      (hclash : ctx.declares e.package (Name.entriesHolder e.simpleName) = true) :
      Violated ctx (.entries e)
        (.refused
          { cause := .holderClash e.simpleName (Name.entriesHolder e.simpleName),
            location := e.origin })
  | knownKind {kind : String} {header : Header} :
      Violated ctx (.knownKind kind header)
        (.refused { cause := .unknownKind kind, location := header.origin })

/-- The condition as a step that may fail. -/
def check (ctx : Context) : Condition → Except Failure Unit
  | closed d => checkClosed d
  | shown member type => verdict (ctx.shown member type)
  | sealedBase d base =>
      if ctx.isSealedBase base then .ok ()
      else .error (.refused { cause := .unsealedBase d.simpleName base, location := d.origin })
  | entries e => checkEntries ctx e
  | knownKind kind header =>
      .error (.refused { cause := .unknownKind kind, location := header.origin })

theorem check_of_holds {c : Condition}
    (h : c.Holds ctx) :
    c.check ctx = .ok () := by
  cases c with
  | closed d => exact checkClosed_eq_ok_iff.2 h
  | shown member type =>
      obtain ⟨s', hs'⟩ := h
      simp [check, Context.shown, hs', Except.mapError]
  | sealedBase d base =>
      have hbase : ctx.isSealedBase base = true := decide_eq_true h
      simp [check, hbase]
  | entries e =>
      have hnodup : repeated e.entries = [] := repeated_eq_nil_iff.2 h.1
      simp [check, checkEntries, hnodup, h.2]
  | knownKind kind header => exact h.elim

theorem check_of_violated {c : Condition} {F : Failure}
    (h : c.Violated ctx F) :
    c.check ctx = .error F := by
  cases h with
  | closed h => simp [check, checkClosed, h]
  | shown h => simp [check, Context.shown, h, Except.mapError]
  | sealedBase h =>
      have hbase : ctx.isSealedBase _ = false := decide_eq_false h
      simp [check, hbase]
  | repeatedEntries h =>
      have hrepeated : repeated _ ≠ [] := mt repeated_eq_nil_iff.1 h
      simp [check, checkEntries, hrepeated]
  | holder h hclash =>
      have hnodup : repeated _ = [] := repeated_eq_nil_iff.2 h
      simp [check, checkEntries, hnodup, hclash]
  | knownKind => rfl

/-- Every condition holds or is violated in a way that has a name. -/
theorem holds_or_violated (ctx : Context) (c : Condition) :
    c.Holds ctx ∨ ∃ F, c.Violated ctx F := by
  cases c with
  | closed d =>
      by_cases h : d.typeParams = []
      · exact .inl h
      · exact .inr ⟨_, .closed h⟩
  | shown member type =>
      cases h : ctx.table.exported type with
      | ok s' => exact .inl ⟨s', h⟩
      | error fault => exact .inr ⟨_, .shown h⟩
  | sealedBase d base =>
      by_cases h : base ∈ ctx.sealedBases
      · exact .inl h
      · exact .inr ⟨_, .sealedBase h⟩
  | entries e =>
      by_cases h : e.entries.Nodup
      · cases hclash : ctx.declares e.package (Name.entriesHolder e.simpleName) with
        | false => exact .inl ⟨h, hclash⟩
        | true => exact .inr ⟨_, .holder h hclash⟩
      · exact .inr ⟨_, .repeatedEntries h⟩
  | knownKind kind header => exact .inr ⟨_, .knownKind⟩

/-- The check of a condition decides it. -/
theorem check_eq_ok_iff {c : Condition} :
    c.check ctx = .ok () ↔ c.Holds ctx := by
  refine ⟨fun h => ?_, check_of_holds⟩
  rcases c.holds_or_violated ctx with hholds | ⟨F, hF⟩
  · exact hholds
  · simp [check_of_violated hF] at h

/-- The check of a condition fails with the violation. -/
theorem check_eq_error_iff {c : Condition} {F : Failure} :
    c.check ctx = .error F ↔ c.Violated ctx F := by
  refine ⟨fun h => ?_, check_of_violated⟩
  rcases c.holds_or_violated ctx with hholds | ⟨F', hF'⟩
  · simp [check_of_holds hholds] at h
  · obtain rfl : F' = F := Except.error.inj ((check_of_violated hF').symm.trans h)
    exact hF'

/-- A failure that is not about the type of a member is a refusal without a member. -/
theorem Violated.member_or_plain {c : Condition} {F : Failure}
    (h : c.Violated ctx F) :
    (∃ member type fault, c = .shown member type ∧ ctx.table.exported type = .error fault ∧
      F = (Failure.ofFault fault).placed none (some member)) ∨
    ∃ refusal, F = .refused refusal ∧ refusal.member = none ∧
      refusal.cause.kind ≠ .unmappable := by
  cases h with
  | shown h => exact .inl ⟨_, _, _, rfl, h, rfl⟩
  | closed h => exact .inr ⟨_, rfl, rfl, by simp [Refusal.Cause.kind]⟩
  | sealedBase h => exact .inr ⟨_, rfl, rfl, by simp [Refusal.Cause.kind]⟩
  | repeatedEntries h => exact .inr ⟨_, rfl, rfl, by simp [Refusal.Cause.kind]⟩
  | holder h hclash => exact .inr ⟨_, rfl, rfl, by simp [Refusal.Cause.kind]⟩
  | knownKind => exact .inr ⟨_, rfl, rfl, by simp [Refusal.Cause.kind]⟩

end Condition

/-- What is said about a member whose type cannot be shown or converted. -/
def memberDiagnostic (origin : Option Location) (member : String) : Fault → Diagnostic
  | .unmappable s => ⟨.error, unmappableMessage s unmappableReason, origin, some member⟩
  | .noArguments key => Request.internalError origin (Fault.noArguments key).message
  | .overlong o => Request.internalError origin o.message

theorem diagnose_placed (origin : Option Location) (member : String) (fault : Fault) :
    Request.diagnose origin ((Failure.ofFault fault).placed none (some member)) =
      memberDiagnostic origin member fault := by
  cases fault with
  | unmappable s => rfl
  | noArguments key => rfl
  | overlong o => rfl

/-- The first condition that is not met fails for the given reason. -/
def FirstViolated (ctx : Context) (conditions : List Condition) (F : Failure) : Prop :=
  ∃ before c after, conditions = before ++ c :: after ∧ (∀ b ∈ before, b.Holds ctx) ∧
    c.Violated ctx F

/-- Checks in a row succeed exactly if all conditions hold. -/
theorem forM_check_eq_ok_iff {ctx : Context} {conditions : List Condition} :
    forM conditions (Condition.check ctx) = .ok () ↔ ∀ c ∈ conditions, c.Holds ctx := by
  simp only [forM_eq_ok_iff, Condition.check_eq_ok_iff]

/-- Checks in a row fail with the first condition that is violated. -/
theorem forM_check_eq_error_iff {ctx : Context} {conditions : List Condition} {F : Failure} :
    forM conditions (Condition.check ctx) = .error F ↔ FirstViolated ctx conditions F := by
  simp only [forM_eq_error_iff, FirstViolated, Condition.check_eq_ok_iff,
    Condition.check_eq_error_iff]

section Members

def propertyCondition (p : Property) : Condition :=
  .shown p.name p.type

/-- Parameters come before the result. -/
def functionConditions (f : Function) : List Condition :=
  f.params.map (fun p => .shown f.name p.type) ++
    if isUnit f.result then [] else [.shown f.name f.result]

def memberConditions (properties : List Property) (functions : List Function) : List Condition :=
  properties.map propertyCondition ++ functions.flatMap functionConditions

/-- The types that the accessors of a property write out. -/
def propertyWrites (ctx : Context) (side : Direction) (p : Property) : List Shape :=
  (if p.isMutable then ctx.table.written side.flip p.type else []) ++
    ctx.table.written side p.type

/-- The types that the body of a function writes out. -/
def functionWrites (ctx : Context) (side : Direction) (f : Function) : List Shape :=
  f.params.flatMap (fun p => ctx.table.written side.flip p.type) ++
    if isUnit f.result then [] else ctx.table.written side f.result

def memberWrites (ctx : Context) (side : Direction) (properties : List Property)
    (functions : List Function) : List Shape :=
  properties.flatMap (propertyWrites ctx side) ++ functions.flatMap (functionWrites ctx side)

variable (ctx : Context) (side : Direction)

/-- The conditions of a function are those of its parameters, then that of its result. -/
theorem forM_functionConditions (f : Function) :
    forM (functionConditions f) (Condition.check ctx) =
      ((forM f.params fun p => (Condition.shown f.name p.type).check ctx) >>= fun _ =>
        if isUnit f.result then .ok () else (Condition.shown f.name f.result).check ctx) := by
  rw [functionConditions, List.forM_append, List.forM_map]
  refine congrArg _ (funext fun _ => ?_)
  split
  · rfl
  · rw [List.forM_cons, List.forM_nil]
    exact bind_pure _

theorem forM_memberConditions (properties : List Property) (functions : List Function) :
    forM (memberConditions properties functions) (Condition.check ctx) =
      ((forM properties fun p => (propertyCondition p).check ctx) >>= fun _ =>
        forM functions fun f => forM (functionConditions f) (Condition.check ctx)) := by
  rw [memberConditions, List.forM_append, List.forM_map, forM_flatMap]

/-- Code is written for a type exactly if the type is shown, but for numbers that cannot be read. -/
theorem agrees_convertIn (member : String) (d : Direction) (e : Expr) (s : Shape) :
    AgreesUpTo Failure.overlong (ctx.table.written d s) (ctx.convertIn member d e s)
      ((Condition.shown member s).check ctx) := by
  rw [Condition.check, Context.shown, verdict_mapError]
  exact (ctx.table.convertsAsShown s d e).mapError fun _ => rfl

/-- Seen from the native side every type can be shown. -/
theorem verdict_visible (member : String) (s : Shape) :
    verdict (ctx.visible side member s) = (Condition.shown member s).check ctx ∨
      verdict (ctx.visible side member s) = .ok () := by
  cases side with
  | exporting => exact .inl rfl
  | importing => exact .inr rfl

/-- A property is wrapped exactly if its condition holds, but for numbers that cannot be read. -/
theorem agrees_wrapProperty (delegate : String) (modifiers : List String) (p : Property) :
    AgreesUpTo Failure.overlong (propertyWrites ctx side p)
      (wrapProperty ctx side delegate modifiers p) ((propertyCondition p).check ctx) := by
  have hvisible := verdict_visible ctx side p.name p.type
  have hsetter := agrees_convertIn ctx p.name side.flip (.name "value") p.type
  have hgetter := agrees_convertIn ctx p.name side (ofDelegate delegate p.name) p.type
  have hrest : ∀ setter, AgreesUpTo Failure.overlong (ctx.table.written side p.type)
      (do
        let type ← ctx.visible side p.name p.type
        let getter ← ctx.convertIn p.name side (ofDelegate delegate p.name) p.type
        .ok ({ name := Name.safe p.name, type, modifiers, isMutable := p.isMutable,
               getter := some getter, setter } : Source.PropertyDef))
      ((Condition.shown p.name p.type).check ctx) :=
    fun _ => (AgreesUpTo.of_verdict rfl).bind_absorb (absorb_left hvisible) fun _ _ => hgetter.map
  rw [propertyWrites, wrapProperty, propertyCondition]
  split
  · exact hsetter.bind_absorb (absorb_left (.inl rfl)) fun _ _ => hrest _
  · exact hrest none

theorem agrees_wrapParameters (function : String) (params : List Parameter) :
    ∃ z, AgreesUpTo Failure.overlong [] (params.mapM (wrapParameter ctx side function)) z ∧
      (z = (forM params fun p => (Condition.shown function p.type).check ctx) ∨ z = .ok ()) := by
  refine ⟨_, .of_verdict rfl, ?_⟩
  simp only [verdict_mapM, wrapParameter, verdict_bind_ok]
  cases side with
  | exporting => exact .inl rfl
  | importing => exact .inr (forM_eq_ok_iff.2 fun _ _ => rfl)

theorem agrees_passArguments (function : String) (params : List Parameter) :
    AgreesUpTo Failure.overlong (params.flatMap fun p => ctx.table.written side.flip p.type)
      (params.mapM (passArgument ctx side function))
      (forM params fun p => (Condition.shown function p.type).check ctx) :=
  .mapM fun _ _ => (agrees_convertIn ctx function side.flip _ _).map

/-- A function is wrapped exactly if its conditions hold, but for numbers that cannot be read. -/
theorem agrees_wrapFunction (delegate : String) (modifiers : List String) (f : Function) :
    AgreesUpTo Failure.overlong (functionWrites ctx side f)
      (wrapFunction ctx side delegate modifiers f)
      (forM (functionConditions f) (Condition.check ctx)) := by
  obtain ⟨z, hparams, hz⟩ := agrees_wrapParameters ctx side f.name f.params
  have hargs := agrees_passArguments ctx side f.name f.params
  have hresult := agrees_convertIn ctx f.name side (.name (resultName f.params)) f.result
  have hvisible := verdict_visible ctx side f.name f.result
  rw [forM_functionConditions, functionWrites, wrapFunction]
  refine hparams.bind_absorb ?_ fun params _ => hargs.bind fun args _ => ?_
  · rw [← bind_assoc, absorb_left hz]
  · split
    · exact .of_verdict rfl
    · rw [← List.append_nil (ctx.table.written side f.result)]
      exact hresult.bind_absorbed (absorb_right hvisible) fun _ _ => (AgreesUpTo.of_verdict rfl).map

theorem agrees_wrapMembers (delegate : String) (propertyModifiers : Property → List String)
    (functionModifiers : Function → List String) {β : Type}
    (properties : List Property) (functions : List Function)
    (result : List Source.PropertyDef → List Source.FunctionDef → β) :
    AgreesUpTo Failure.overlong (memberWrites ctx side properties functions)
      (do
        let properties ← properties.mapM fun p =>
          wrapProperty ctx side delegate (propertyModifiers p) p
        let functions ← functions.mapM fun f =>
          wrapFunction ctx side delegate (functionModifiers f) f
        .ok (result properties functions))
      (forM (memberConditions properties functions) (Condition.check ctx)) := by
  rw [forM_memberConditions]
  refine (AgreesUpTo.mapM fun p _ => ?_).bind fun _ _ => (AgreesUpTo.mapM fun f _ => ?_).map
  · exact agrees_wrapProperty ctx side delegate (propertyModifiers p) p
  · exact agrees_wrapFunction ctx side delegate (functionModifiers f) f

/-- A function without a body fails as its conditions do. -/
theorem verdict_abstractFunction (modifiers : List String) (f : Function) :
    verdict (abstractFunction ctx modifiers f) =
      forM (functionConditions f) (Condition.check ctx) := by
  rw [forM_functionConditions, abstractFunction]
  have hparams : verdict (f.params.mapM (wrapParameter ctx .exporting f.name)) =
      forM f.params fun p => (Condition.shown f.name p.type).check ctx := by
    simp only [verdict_mapM, wrapParameter, verdict_bind_ok]
    rfl
  rw [← hparams]
  refine verdict_bind fun params => ?_
  split
  · rfl
  · rw [verdict_bind_ok, verdict_map]
    rfl

theorem verdict_abstractMembers (propertyModifiers : Property → List String)
    (functionModifiers : Function → List String) {β : Type}
    (properties : List Property) (functions : List Function)
    (result : List Source.PropertyDef → List Source.FunctionDef → β) :
    verdict (do
        let properties ← properties.mapM fun p => abstractProperty ctx (propertyModifiers p) p
        let functions ← functions.mapM fun f => abstractFunction ctx (functionModifiers f) f
        .ok (result properties functions)) =
      forM (memberConditions properties functions) (Condition.check ctx) := by
  have hproperties : verdict (properties.mapM fun p =>
      abstractProperty ctx (propertyModifiers p) p) =
        forM properties fun p => (propertyCondition p).check ctx := by
    simp only [verdict_mapM, abstractProperty, verdict_bind_ok]
    rfl
  rw [forM_memberConditions, ← hproperties]
  refine verdict_bind fun _ => ?_
  simp only [verdict_bind_ok, verdict_mapM, verdict_abstractFunction]

end Members

section Ancestors

variable {ctx : Context}

/-- A type is shown before the session is asked for it. -/
def supertypeConditions (d : Template) (s : Supertype) : List Condition :=
  .shown s.type.name s.type :: if s.isClass then [.sealedBase d s.type.key] else []

theorem verdict_add (ctx : Context) (d : Template) (a : Ancestry) (s : Supertype) :
    verdict (Ancestry.add ctx d a s) =
      forM (supertypeConditions d s) (Condition.check ctx) := by
  rw [Ancestry.add, supertypeConditions, List.forM_cons]
  refine verdict_bind fun shape => ?_
  cases s.isClass with
  | false => rfl
  | true =>
      simp only [Bool.not_true, Bool.false_eq_true, if_false, if_true, List.forM_cons,
        List.forM_nil, Condition.check]
      cases ctx.isSealedBase s.type.key with
      | false => rfl
      | true => rfl

/-- The supertypes of a declaration fail as their conditions do, after that on type parameters. -/
theorem verdict_checkedAncestry (ctx : Context) (d : Template) :
    verdict (checkedAncestry ctx d) =
      forM (.closed d :: d.supers.flatMap (supertypeConditions d)) (Condition.check ctx) := by
  have hclosed : verdict (checkClosed d) = (Condition.closed d).check ctx := verdict_unit _
  rw [checkedAncestry, List.forM_cons, ← hclosed, forM_flatMap]
  exact verdict_bind fun _ => verdict_foldlM (fun a s _ => verdict_add ctx d a s) {}

theorem unbuildable_of_add {d : Template} {a a' : Ancestry} {s : Supertype}
    (h : Ancestry.add ctx d a s = .ok a') :
    a'.unbuildable.isEmpty = (a.unbuildable.isEmpty && s.isReconstructable) := by
  obtain ⟨shape, -, h⟩ := bind_eq_ok_iff.1 h
  cases hclass : s.isClass with
  | false =>
      rw [hclass] at h
      obtain rfl := Except.ok.inj h
      simp [Supertype.isReconstructable, hclass]
  | true =>
      rw [hclass] at h
      simp only [Bool.not_true, Bool.false_eq_true, if_false] at h
      split at h
      · simp at h
      · obtain rfl := Except.ok.inj h
        cases s.isReconstructable with
        | false => simp
        | true => simp

/-- A class can be built from outside exactly if all its supertypes can. -/
theorem unbuildable_of_foldlM {d : Template} {supers : List Supertype} {a a' : Ancestry}
    (h : supers.foldlM (Ancestry.add ctx d) a = .ok a') :
    a'.unbuildable.isEmpty = (a.unbuildable.isEmpty && supers.all Supertype.isReconstructable) := by
  induction supers generalizing a with
  | nil =>
      obtain rfl := Except.ok.inj h
      simp
  | cons s rest ih =>
      rw [List.foldlM_cons] at h
      obtain ⟨next, hnext, h⟩ := bind_eq_ok_iff.1 h
      rw [ih h, unbuildable_of_add hnext, List.all_cons, Bool.and_assoc]

end Ancestors

section Declarations

variable (ctx : Context)

/-- What a class hands to the constructors of its supertypes is known. -/
def isConstructible (c : ClassDecl) : Bool :=
  c.supers.all Supertype.isReconstructable

def constructorConditions (c : ClassDecl) : List Condition :=
  if isConstructible c then c.constructorParams.map fun p => .shown p.name p.type else []

/-- The types that the constructor of a wrapper writes out. -/
def constructorWrites (c : ClassDecl) : List Shape :=
  if isConstructible c then
    c.constructorParams.flatMap (fun p => ctx.table.written .importing p.type) ++ c.typeArgs
  else []

def classConditions (c : ClassDecl) : List Condition :=
  (.closed c.toTemplate :: c.supers.flatMap (supertypeConditions c.toTemplate)) ++
    (constructorConditions c ++ memberConditions c.properties c.functions)

/-- The conditions of a declaration, in the order in which they decide. -/
def conditions : Declaration → List Condition
  | .cls c => classConditions c
  | .interface i =>
      .closed i.toTemplate :: (i.supers.map (fun s => .shown s.type.name s.type) ++
        memberConditions i.properties i.functions)
  | .sealed d => memberConditions d.properties d.functions
  | .enumeration e => [.entries e]
  | .other kind header => [.knownKind kind header]

/-- The types that the code of a wrapper writes out. -/
def writes : Declaration → List Shape
  | .cls c => constructorWrites ctx c ++ memberWrites ctx .exporting c.properties c.functions
  | .interface i =>
      memberWrites ctx .exporting i.properties i.functions ++
        memberWrites ctx .importing i.properties i.functions
  | .sealed d => d.subclasses.map Subclass.shape
  | _ => []

/-- What can be shown is converted unless a type cannot be written. -/
theorem agrees_convert {s : Shape} (d : Direction) (e : Expr)
    (h : ∃ s', ctx.table.exported s = .ok s') :
    AgreesUpTo Failure.overlong (ctx.table.written d s) (ctx.convert d e s) (.ok ()) := by
  have hok : (verdict (ctx.table.exported s)).mapError Failure.ofFault = .ok () :=
    mapError_eq_ok_iff.2 (verdict_eq_ok_iff.2 h)
  rw [← hok]
  exact (ctx.table.convertsAsShown s d e).mapError fun _ => rfl

/-- The second pass over the parameters meets no type that the first one has not met. -/
theorem agrees_publicConstructor (c : ClassDecl) :
    AgreesUpTo Failure.overlong
      (c.constructorParams.flatMap (fun p => ctx.table.written .importing p.type) ++ c.typeArgs)
      (publicConstructor ctx c)
      (forM c.constructorParams fun p => (Condition.shown p.name p.type).check ctx) := by
  have hok : (forM c.constructorParams fun _ => (.ok () : Except Failure Unit)) = .ok () :=
    forM_eq_ok_iff.2 fun _ _ => rfl
  have hnumbers := (AgreesUpTo.of_checkNumbers_all c.typeArgs).mapError
    (f := Failure.overlong) fun _ => rfl
  have hparams : AgreesUpTo Failure.overlong [] (c.constructorParams.mapM fun p => do
      let type ← ctx.shown p.name p.type
      .ok ({ name := Name.safe p.name, type } : Source.ParameterDef))
      (forM c.constructorParams fun p => (Condition.shown p.name p.type).check ctx) := by
    refine .of_verdict ?_
    simp only [verdict_mapM, verdict_bind_ok]
    rfl
  refine hparams.bind_absorbed (absorb_right (.inr hok)) fun params hparams' => ?_
  have hshown := forM_eq_ok_iff.1 (hparams.ok params hparams').1
  refine (AgreesUpTo.mapM fun p hp => ?_).bind_absorbed ?_ fun args _ => hnumbers.map
  · exact (agrees_convert ctx _ _ (Condition.check_eq_ok_iff.1 (hshown p hp))).map
  · exact bind_pure _

/-- The file of a class fails as its conditions do, but for numbers that cannot be read. -/
theorem agrees_ofClass (c : ClassDecl) :
    AgreesUpTo Failure.overlong (writes ctx (.cls c)) (ofClass ctx c)
      (forM (conditions (.cls c)) (Condition.check ctx)) := by
  have hancestry : AgreesUpTo Failure.overlong [] (checkedAncestry ctx c.toTemplate)
    (verdict (checkedAncestry ctx c.toTemplate)) := .of_verdict rfl
  rw [conditions, classConditions, List.forM_append, List.forM_append, ← verdict_checkedAncestry,
    ← List.nil_append (writes ctx (.cls c))]
  refine hancestry.bind fun ancestry h => ?_
  have hbuildable : ancestry.unbuildable.isEmpty = isConstructible c :=
    unbuildable_of_foldlM (checkedAncestry_eq_ok h).2
  -- The supertypes that were added one by one decide whether there is a constructor.
  rw [writes, constructorWrites, constructorConditions]
  dsimp only
  rw [hbuildable]
  split
  · rw [List.forM_map]
    refine (agrees_publicConstructor ctx c).bind fun k _ => ?_
    rw [pure_bind]
    exact agrees_wrapMembers ctx .exporting _ _ _ _ _ _
  · rw [List.nil_append, List.forM_nil, pure_bind, pure_bind]
    exact agrees_wrapMembers ctx .exporting _ _ _ _ _ _

/-- An adapter fails as the conditions of its members do. -/
theorem agrees_adapter (side : Direction) (name delegate : String) (held implemented : Shape)
    (i : InterfaceDecl) :
    AgreesUpTo Failure.overlong (memberWrites ctx side i.properties i.functions)
      (adapter ctx side name delegate held implemented i)
      (forM (memberConditions i.properties i.functions) (Condition.check ctx)) :=
  agrees_wrapMembers ctx side delegate (fun _ => ["override"]) (fun _ => ["override"]) _ _ _

theorem verdict_shownInterface (i : InterfaceDecl) :
    verdict (shownInterface ctx i) =
      ((forM i.supers fun s => (Condition.shown s.type.name s.type).check ctx) >>= fun _ =>
        forM (memberConditions i.properties i.functions) (Condition.check ctx)) := by
  have hsupers : verdict (i.supers.mapM fun s => ctx.shown s.type.name s.type) =
      forM i.supers fun s => (Condition.shown s.type.name s.type).check ctx := verdict_mapM _
  rw [shownInterface, ← hsupers]
  exact verdict_bind fun _ => verdict_abstractMembers ctx _ _ _ _ _

/-- The adapters have the members of the interface, which can be shown by then. -/
theorem agrees_ofInterface (i : InterfaceDecl) :
    AgreesUpTo Failure.overlong (writes ctx (.interface i)) (ofInterface ctx i)
      (forM (conditions (.interface i)) (Condition.check ctx)) := by
  have hshown : AgreesUpTo Failure.overlong [] (shownInterface ctx i)
    (verdict (shownInterface ctx i)) := .of_verdict rfl
  have hclosed : AgreesUpTo Failure.overlong [] (checkClosed i.toTemplate)
    ((Condition.closed i.toTemplate).check ctx) := .of_verdict (verdict_unit _)
  have habsorb : (forM (memberConditions i.properties i.functions) (Condition.check ctx) >>=
      fun _ => forM (memberConditions i.properties i.functions) (Condition.check ctx)) =
        forM (memberConditions i.properties i.functions) (Condition.check ctx) :=
    absorb_left (.inl rfl)
  rw [conditions, List.forM_cons, List.forM_append, List.forM_map, ← verdict_shownInterface]
  refine hclosed.bind fun _ _ => hshown.bind_absorbed ?_ fun _ _ =>
    (agrees_adapter ctx .exporting _ _ _ _ i).bind_absorb habsorb fun _ _ =>
      (agrees_adapter ctx .importing _ _ _ _ i).map
  rw [verdict_shownInterface, bind_assoc, habsorb]

theorem partsAll_subclasses (subclasses : List Subclass) :
    Shape.partsAll (subclasses.map Subclass.shape) = subclasses.map Subclass.shape := by
  induction subclasses with
  | nil => rfl
  | cons s rest ih =>
      rw [List.map_cons, Shape.partsAll, ih]
      rfl

/-- The file of a sealed class fails as its conditions do, but for numbers that cannot be read. -/
theorem agrees_ofSealed (d : SealedDecl) :
    AgreesUpTo Failure.overlong (writes ctx (.sealed d)) (ofSealed ctx d)
      (forM (conditions (.sealed d)) (Condition.check ctx)) := by
  have hbase : AgreesUpTo Failure.overlong [] (sealedType ctx d)
    (forM (conditions (.sealed d)) (Condition.check ctx)) :=
      .of_verdict (verdict_abstractMembers ctx _ _ _ _ _)
  have hnumbers := (AgreesUpTo.of_checkNumbers_all (d.subclasses.map Subclass.shape)).mapError
    (f := Failure.overlong) fun _ => rfl
  rw [partsAll_subclasses] at hnumbers
  exact hbase.bind_absorbed (absorb_right (.inr rfl)) fun _ _ => hnumbers.map

/-- The file of an enumeration fails as its conditions do. -/
theorem agrees_ofEnumeration (e : EnumDecl) :
    AgreesUpTo Failure.overlong (writes ctx (.enumeration e)) (ofEnumeration ctx e)
      (forM (conditions (.enumeration e)) (Condition.check ctx)) := by
  have hentries : AgreesUpTo Failure.overlong [] (checkEntries ctx e)
    ((Condition.entries e).check ctx) := .of_verdict (verdict_unit _)
  rw [conditions, List.forM_cons, List.forM_nil]
  exact hentries.bind fun _ _ => .of_verdict rfl

/-- Wrapping comes to the verdict of the conditions, up to the types that are written out. -/
theorem agrees_ofDeclaration (d : Declaration) :
    AgreesUpTo Failure.overlong (writes ctx d) (ofDeclaration ctx d)
      (forM (conditions d) (Condition.check ctx)) := by
  cases d with
  | cls c => exact agrees_ofClass ctx c
  | interface i => exact agrees_ofInterface ctx i
  | sealed d => exact agrees_ofSealed ctx d
  | enumeration e => exact agrees_ofEnumeration ctx e
  | other kind header => exact .of_verdict rfl

/-- Where all numbers can be read, a declaration fails with the first condition that is violated. -/
theorem ofDeclaration_eq_error_iff {d : Declaration} {F : Failure}
    (hwrites : ∀ u ∈ writes ctx d, Readable u) :
    ofDeclaration ctx d = .error F ↔ FirstViolated ctx (conditions d) F := by
  rw [← verdict_eq_error_iff, (agrees_ofDeclaration ctx d).verdict_eq hwrites]
  exact forM_check_eq_error_iff

/-- A request that fails has one diagnostic. -/
theorem diagnostics_of_build {ctx : Context} {r : Request} {F : Failure}
    (h : r.build ctx = .error F) :
    (r.fulfil ctx).diagnostics = [Request.diagnose r.decl.origin F] := by
  rw [Request.fulfil, h]

/-- The first member whose type cannot be shown is what the user is told about. -/
theorem diagnostics_of_first_shown {ctx : Context} {d : Declaration} {before after : List Condition}
    {member : String} {type : Shape} {fault : Fault}
    (hwrites : ∀ u ∈ writes ctx d, Readable u)
    (hlist : conditions d = before ++ .shown member type :: after)
    (hbefore : ∀ b ∈ before, b.Holds ctx)
    (hfault : ctx.table.exported type = .error fault) (sources : List Location) :
    ((Request.declaration d sources).fulfil ctx).diagnostics =
      [memberDiagnostic d.origin member fault] := by
  have hfirst : FirstViolated ctx (conditions d) _ :=
    ⟨before, .shown member type, after, hlist, hbefore, .shown hfault⟩
  have hbuild : (Request.declaration d sources).build ctx = _ :=
    (ofDeclaration_eq_error_iff ctx hwrites).2 hfirst
  rw [diagnostics_of_build hbuild, diagnose_placed]
  rfl

end Declarations

section Written

variable {ctx : Context}

/-- The types that the code of a wrapper writes out, apart from those of members. -/
def ownWrites : Declaration → List Shape
  | .cls c => if isConstructible c then c.typeArgs else []
  | .sealed d => d.subclasses.map Subclass.shape
  | _ => []

theorem exists_of_mem_propertyWrites {side : Direction} {p : Property} {u : Shape}
    (hu : u ∈ propertyWrites ctx side p) :
    ∃ d, u ∈ ctx.table.written d p.type := by
  rcases List.mem_append.1 hu with hu | hu
  · split at hu
    · exact ⟨side.flip, hu⟩
    · simp at hu
  · exact ⟨side, hu⟩

theorem exists_of_mem_functionWrites {side : Direction} {f : Function} {u : Shape}
    (hu : u ∈ functionWrites ctx side f) :
    ∃ type d, .shown f.name type ∈ functionConditions f ∧ u ∈ ctx.table.written d type := by
  rw [functionConditions]
  rcases List.mem_append.1 hu with hu | hu
  · obtain ⟨p, hp, hu⟩ := List.mem_flatMap.1 hu
    exact ⟨p.type, side.flip, List.mem_append_left _ (List.mem_map.2 ⟨p, hp, rfl⟩), hu⟩
  · split at hu
    · simp at hu
    · next hunit =>
        rw [if_neg hunit]
        exact ⟨f.result, side, List.mem_append_right _ (List.mem_singleton_self _), hu⟩

/-- Whatever type the code of a member mentions comes from a type that has to be shown. -/
theorem exists_of_mem_memberWrites {side : Direction} {properties : List Property}
    {functions : List Function} {u : Shape}
    (hu : u ∈ memberWrites ctx side properties functions) :
    ∃ member type d, .shown member type ∈ memberConditions properties functions ∧
      u ∈ ctx.table.written d type := by
  rcases List.mem_append.1 hu with hu | hu
  · obtain ⟨p, hp, hu⟩ := List.mem_flatMap.1 hu
    obtain ⟨d, hu⟩ := exists_of_mem_propertyWrites hu
    exact ⟨p.name, p.type, d, List.mem_append_left _ (List.mem_map.2 ⟨p, hp, rfl⟩), hu⟩
  · obtain ⟨f, hf, hu⟩ := List.mem_flatMap.1 hu
    obtain ⟨type, d, htype, hu⟩ := exists_of_mem_functionWrites hu
    exact ⟨f.name, type, d, List.mem_append_right _ (List.mem_flatMap.2 ⟨f, hf, htype⟩), hu⟩

/-- What is written out belongs to a member whose type has to be shown, or to the declaration. -/
theorem exists_of_mem_writes {d : Declaration} {u : Shape}
    (hu : u ∈ writes ctx d) :
    (∃ member type side, .shown member type ∈ conditions d ∧ u ∈ ctx.table.written side type) ∨
      u ∈ ownWrites d := by
  cases d with
  | cls c =>
      rw [writes, constructorWrites] at hu
      rw [conditions, classConditions, constructorConditions, ownWrites]
      rcases List.mem_append.1 hu with hu | hu
      · split at hu
        · next hconstructible =>
            rw [if_pos hconstructible, if_pos hconstructible]
            rcases List.mem_append.1 hu with hu | hu
            · obtain ⟨p, hp, hu⟩ := List.mem_flatMap.1 hu
              refine .inl ⟨p.name, p.type, .importing, ?_, hu⟩
              exact List.mem_append_right _
                (List.mem_append_left _ (List.mem_map.2 ⟨p, hp, rfl⟩))
            · exact .inr hu
        · simp at hu
      · obtain ⟨member, type, side, hmem, hu⟩ := exists_of_mem_memberWrites hu
        refine .inl ⟨member, type, side, ?_, hu⟩
        exact List.mem_append_right _ (List.mem_append_right _ hmem)
  | interface i =>
      have hmember : ∃ member type side,
          .shown member type ∈ memberConditions i.properties i.functions ∧
            u ∈ ctx.table.written side type := by
        rcases List.mem_append.1 hu with hu | hu
        · exact exists_of_mem_memberWrites hu
        · exact exists_of_mem_memberWrites hu
      obtain ⟨member, type, side, hmem, hu⟩ := hmember
      refine .inl ⟨member, type, side, ?_, hu⟩
      exact List.mem_cons_of_mem _ (List.mem_append_right _ hmem)
  | sealed d => exact .inr hu
  | enumeration e => simp [writes] at hu
  | other kind header => simp [writes] at hu

theorem mem_memberTypes_of_shown {properties : List Property} {functions : List Function}
    {member : String} {type : Shape}
    (h : .shown member type ∈ memberConditions properties functions) :
    type ∈ memberTypes properties functions := by
  rcases List.mem_append.1 h with h | h
  · obtain ⟨p, hp, heq⟩ := List.mem_map.1 h
    obtain ⟨-, rfl⟩ := Condition.shown.inj heq
    exact mem_memberTypes_of_property hp
  · obtain ⟨f, hf, h⟩ := List.mem_flatMap.1 h
    refine mem_memberTypes_of_function hf ?_
    rcases List.mem_append.1 h with h | h
    · obtain ⟨p, hp, heq⟩ := List.mem_map.1 h
      obtain ⟨-, rfl⟩ := Condition.shown.inj heq
      exact List.mem_cons_of_mem _ (List.mem_map_of_mem hp)
    · split at h
      · simp at h
      · obtain ⟨-, rfl⟩ := Condition.shown.inj (List.mem_singleton.1 h)
        exact List.mem_cons_self

/-- The types that have to be shown are mentioned by the declaration. -/
theorem mem_mentions_of_shown {d : Declaration} {member : String} {type : Shape}
    (h : .shown member type ∈ conditions d) :
    type ∈ d.mentions := by
  cases d with
  | cls c =>
      rcases List.mem_append.1 h with h | h
      · rcases List.mem_cons.1 h with h | h
        · simp at h
        · obtain ⟨s, hs, h⟩ := List.mem_flatMap.1 h
          obtain rfl : type = s.type := by
            rcases List.mem_cons.1 h with h | h
            · exact (Condition.shown.inj h).2
            · split at h
              · simp at h
              · simp at h
          exact List.mem_append_left _ (Template.mem_mentions_of_super hs)
      · rcases List.mem_append.1 h with h | h
        · rw [constructorConditions] at h
          split at h
          · obtain ⟨p, hp, heq⟩ := List.mem_map.1 h
            obtain ⟨-, rfl⟩ := Condition.shown.inj heq
            exact List.mem_append_right _ (List.mem_map_of_mem hp)
          · simp at h
        · exact List.mem_append_left _
            (Template.mem_mentions_of_member (mem_memberTypes_of_shown h))
  | interface i =>
      rcases List.mem_cons.1 h with h | h
      · simp at h
      · rcases List.mem_append.1 h with h | h
        · obtain ⟨s, hs, heq⟩ := List.mem_map.1 h
          obtain ⟨-, rfl⟩ := Condition.shown.inj heq
          exact Template.mem_mentions_of_super hs
        · exact Template.mem_mentions_of_member (mem_memberTypes_of_shown h)
  | sealed d => exact List.mem_cons_of_mem _ (mem_memberTypes_of_shown h)
  | enumeration e => simp [conditions] at h
  | other kind header => simp [conditions] at h

section Session

variable {exported : List (Shape × String)} {extra : List Shape} {erase : Bool}

/-- A number that keeps code from being written stands in the declaration. -/
theorem hasOverlong_of_mem_writes {d : Declaration} {u : Shape} {o : Text.Overlong}
    (hT : Table.ofSession exported extra erase = .ok ctx.table)
    (hu : u ∈ writes ctx d)
    (ho : HasOverlong u o) :
    (∃ member type, .shown member type ∈ conditions d ∧ HasOverlong type o) ∨
      ∃ t ∈ ownWrites d, HasOverlong t o := by
  rcases exists_of_mem_writes hu with ⟨member, type, side, hmem, hu⟩ | hu
  · exact .inl ⟨member, type, hmem, hasOverlong_of_mem_written hT type side u o hu ho⟩
  · exact .inr ⟨u, hu, ho⟩

/-- If a class mentions no number that cannot be read, its code mentions none either. -/
theorem readable_of_mem_classWrites {c : ClassDecl}
    (hT : Table.ofSession exported extra erase = .ok ctx.table)
    (h : ∀ s ∈ (Declaration.cls c).mentions, Readable s) :
    ∀ u ∈ writes ctx (.cls c), Readable u := by
  intro u hu
  refine readable_of_not_hasOverlong fun o ho => ?_
  rcases hasOverlong_of_mem_writes hT hu ho with ⟨member, type, hmem, hnumber⟩ | ⟨t, ht, hnumber⟩
  · exact not_hasOverlong (h type (mem_mentions_of_shown hmem)) hnumber
  · have hnative : Readable c.native :=
      h c.native (List.mem_append_left _ List.mem_cons_self)
    have hargs : t ∈ c.native.args := by
      rw [ownWrites] at ht
      split at ht
      · exact ht
      · simp at ht
    exact not_hasOverlong hnative (hnumber.of_mem_args hargs)

end Session

end Written

end Wrapper
end Facade
