import Facade.Discovery.Basic
import Facade.Proofs.Descriptions
import Facade.Proofs.Registration
import Mathlib.Data.List.Forall2

/-!
# Sessions of discovered declarations

Whatever goes wrong with one request becomes a diagnostic of that request.  The table of the session
is built before, from all requests and all exceptions that were found, and a type with two rules
stops the whole session.

**Input.**  What discovery found.

**Results.**
* `plain_of_run`: discovery only finds declarations of known kinds and exceptions without type
  arguments.
* `apart_iff_not_clash`: the rules of such findings are apart unless a request or an exception
  takes a type that has a rule already.
* `session_fails_iff_clash`: these are the only sessions that fail; all others answer every
  request.
-/

namespace Facade

open Mapping Wrapper

namespace Discovery

/-- Requests for declarations of known kinds, and exceptions without type arguments. -/
structure Findings.Plain (found : Findings) : Prop where
  wrappable : ∀ r ∈ found.requests, r.decl.isWrappable
  bare : ∀ s ∈ found.extraExceptions, s.args = [] ∧ s.nullable = false

/-- Only declarations of known kinds are described. -/
theorem isWrappable_of_describe {c : Compiled.Class} {origin : Option Location} {d : Declaration}
    (h : c.describe origin = .ok d) :
    d.isWrappable := by
  obtain ⟨names, -, ⟨entries, rfl⟩ | hmembers⟩ := Compiled.Class.describe_eq_ok h
  · rfl
  · obtain ⟨typeParams, members, -, -, ⟨supers, -, rfl⟩ | ⟨params, subclasses, -, -, rfl⟩ |
      ⟨supers, params, -, -, rfl⟩⟩ := Compiled.Class.describeMembers_eq_ok hmembers
    · rfl
    · rfl
    · rfl

theorem args_ofBinaryName (name : String) :
    (Shape.ofBinaryName name [] false).args = [] ∧
      (Shape.ofBinaryName name [] false).nullable = false := by
  rw [Shape.ofBinaryName]
  split
  · exact ⟨rfl, rfl⟩
  · exact ⟨rfl, rfl⟩

variable {classes : Compiled.Classes} {o : Options}

/-- A class adds requests for types that can be wrapped, and exceptions without arguments. -/
theorem plain_inspect (name : String) (location : Location) :
    (inspect classes o name location).Plain := by
  have hbare : ∀ c : Compiled.Class,
      ∀ s ∈ if c.model.isThrowable then [Shape.ofBinaryName name [] false] else [],
        s.args = [] ∧ s.nullable = false := by
    intro c s hs
    split at hs
    · obtain rfl := List.mem_singleton.1 hs
      exact args_ofBinaryName name
    · simp at hs
  rw [inspect]
  split
  · exact ⟨by simp, by simp⟩
  · next c hload =>
      dsimp only
      split
      · exact ⟨by simp, hbare c⟩
      · split
        · exact ⟨by simp, hbare c⟩
        · exact ⟨by simp, hbare c⟩
        · split
          · next d hdescribe =>
              refine ⟨?_, hbare c⟩
              intro r hr
              obtain rfl := List.mem_singleton.1 hr
              exact isWrappable_of_describe hdescribe
          · exact ⟨by simp, hbare c⟩
          · exact ⟨by simp, hbare c⟩

theorem Survey.plain_append {a b : Survey}
    (ha : a.Plain)
    (hb : b.Plain) :
    (a.append b).Plain := by
  constructor
  · intro r hr
    rcases List.mem_append.1 hr with hr | hr
    · exact ha.wrappable r hr
    · exact hb.wrappable r hr
  · intro s hs
    rcases List.mem_append.1 hs with hs | hs
    · exact ha.bare s hs
    · exact hb.bare s hs

/-- All classes together add nothing else. -/
theorem plain_inspectAll (locations : Dictionary String Location) :
    (inspectAll classes o locations).Plain := by
  induction locations with
  | nil => exact ⟨by simp [inspectAll], by simp [inspectAll]⟩
  | cons entry rest ih => exact Survey.plain_append (plain_inspect entry.1 entry.2) ih

/-- An instantiation asks for a type that can be wrapped. -/
theorem isWrappable_of_instanceRequest {locations : Dictionary String Location}
    {spec : InstanceSpec} {askedAt : Option Location} {r : Request}
    (h : instanceRequest classes locations spec askedAt = .ok r) :
    r.decl.isWrappable := by
  unfold instanceRequest at h
  dsimp only at h
  split at h
  · next d hdescribed =>
      obtain rfl := Except.ok.inj h
      obtain ⟨c, -, hdescribe⟩ := Outcome.bind_eq_ok_iff.1 hdescribed
      exact isWrappable_of_describe hdescribe
  · simp at h
  · simp at h

/-- One instantiation adds a request of a known kind or a diagnostic. -/
theorem plain_addInstance {locations : Dictionary String Location} {found : Findings}
    (spec : InstanceSpec × Option Location)
    (h : found.Plain) :
    (addInstance classes locations found spec).Plain := by
  rw [addInstance]
  split
  · next r hr =>
      refine ⟨?_, h.bare⟩
      intro q hq
      rcases List.mem_append.1 hq with hq | hq
      · exact h.wrappable q hq
      · obtain rfl := List.mem_singleton.1 hq
        exact isWrappable_of_instanceRequest hr
  · exact ⟨h.wrappable, h.bare⟩

theorem plain_addInstances {locations : Dictionary String Location} {found : Findings}
    (specs : List (InstanceSpec × Option Location))
    (h : found.Plain) :
    (specs.foldl (addInstance classes locations) found).Plain := by
  induction specs generalizing found with
  | nil => exact h
  | cons spec rest ih => exact ih (plain_addInstance spec h)

/-- A run that succeeds has found the classes of the inputs and inspected them. -/
theorem run_eq_ok {s : Store} {m : Machine} {inputs : List Path} {specs : List InstanceSpec}
    {found : Findings}
    (h : (run s m o inputs specs).result = .ok found) :
    ∃ locations, ClassFile.locations s inputs = .ok locations ∧
      found = Inspection.complete ⟨locations, inspectAll m.classes o locations⟩ m.classes specs ∧
      ∀ line ∈ (inspectAll m.classes o locations).log, line ∈ (run s m o inputs specs).log := by
  unfold run inspectInputs at h ⊢
  cases hclasspath : classpathOf s m.extractDirectory inputs with
  | error e => simp [hclasspath] at h
  | ok classpath =>
      rcases hasked : askAll m.raises (machineCalls m.started o.machinePath classpath.entries) with
        ⟨calls, e | _⟩
      · simp [hclasspath, hasked] at h
      · cases hlocations : ClassFile.locations s inputs with
        | error e => simp [hclasspath, hasked, hlocations] at h
        | ok locations =>
            simp only [hclasspath, hasked, hlocations] at h ⊢
            refine ⟨locations, rfl, (Except.ok.inj h).symm, ?_⟩
            intro line hline
            exact List.mem_append_left _ (List.mem_append_right _ hline)

/-- Discovery only finds types that can be wrapped and exceptions without arguments. -/
theorem plain_of_run {s : Store} {m : Machine} {inputs : List Path} {specs : List InstanceSpec}
    {found : Findings}
    (h : (run s m o inputs specs).result = .ok found) :
    found.Plain := by
  obtain ⟨locations, -, rfl, -⟩ := run_eq_ok h
  exact plain_addInstances _ (plain_inspectAll locations)

end Discovery

/-- A request or an exception takes a type that has a rule already. -/
inductive Clash (requests : List Request) (extra : List Shape) : Prop
  | exception {s : Shape}
      (hs : s ∈ extra)
      (hkey : s.key ∈ builtinKeys) :
      Clash requests extra
  | request {r : Request} {native : Shape} {name : String}
      (hr : r ∈ requests)
      (hregistered : r.registered? = some (native, name))
      (hargs : native.args = [])
      (hkey : native.key ∈ builtinKeys ∨ native.key ∈ exceptionKeys extra) :
      Clash requests extra

/-- What a request is answered with: a file, or one error. -/
structure Request.Answered (r : Request) (result : ExportResult) : Prop where
  sources : result.sources = r.sources
  answer : ((∃ F, result.file = some F) ∧ result.diagnostics = []) ∨
    (result.file = none ∧ ∃ d, result.diagnostics = [d] ∧ d.severity = .error)

/-- Every request has a file or one diagnostic. -/
theorem Request.answered_fulfil (ctx : Context) (r : Request) :
    r.Answered (r.fulfil ctx) := by
  rw [fulfil]
  split
  · exact ⟨rfl, .inl ⟨⟨_, rfl⟩, rfl⟩⟩
  · next f hbuild =>
      refine ⟨rfl, .inr ⟨rfl, _, rfl, ?_⟩⟩
      cases f with
      | refused refusal => rfl
      | noArguments key => rfl
      | overlong o => rfl

namespace Session

variable {requests : List Request} {known : Dictionary Shape String} {extra : List Shape}

/-- The keys of a session are apart exactly if no two of its rules clash. -/
theorem apart_iff_not_clash
    (hknown : exportedTypes requests = .ok known)
    (hbare : ∀ s ∈ extra, s.args = [] ∧ s.nullable = false) :
    Apart known extra ↔ ¬ Clash requests extra := by
  constructor
  · intro h hclash
    cases hclash with
    | exception hs hkey =>
        exact h.builtin _ (List.mem_map_of_mem (List.mem_append_right _ hs)) hkey
    | request hr hregistered hargs hkey =>
        obtain ⟨first, hfirst⟩ := exists_mem_exportedTypes hknown hr hregistered
        obtain ⟨hbuiltin, hexception⟩ :=
          h.declared _ (mem_declaredKeys.2 ⟨_, first, hfirst, hargs, rfl⟩)
        rcases hkey with hkey | hkey
        · exact hbuiltin hkey
        · exact hexception hkey
  · intro hclash
    have hexceptions : ∀ s ∈ Shape.exceptions, s.args = [] ∧ s.nullable = false := by decide
    have hall : ∀ s ∈ Shape.exceptions ++ extra, s.args = [] ∧ s.nullable = false :=
      List.forall_mem_append.2 ⟨hexceptions, hbare⟩
    constructor
    case exceptions =>
      -- exceptions have no arguments, so that a key stands for one of them
      intro s hs t ht hkey
      obtain ⟨hargs, hnullable⟩ := hall s hs
      obtain ⟨hargs', hnullable'⟩ := hall t ht
      exact (Shape.eq_iff_of_nullable hnullable hnullable').2 ⟨hkey, hargs.trans hargs'.symm⟩
    case builtin =>
      intro key hkey hbuiltin
      obtain ⟨s, hs, rfl⟩ := List.mem_map.1 hkey
      rcases List.mem_append.1 hs with hs | hs
      · have hknown : ∀ s ∈ Shape.exceptions, s.key ∉ builtinKeys := by decide
        exact hknown s hs hbuiltin
      · exact hclash (.exception hs hbuiltin)
    case nodup =>
      exact nodup_declaredKeys (nodup_keys_exportedTypes hknown)
        fun entry hmem => nullable_of_mem_exportedTypes hknown hmem
    case declared =>
      intro key hkey
      obtain ⟨native, name, hmem, hargs, rfl⟩ := mem_declaredKeys.1 hkey
      obtain ⟨r, hr, hregistered⟩ := mem_exportedTypes hknown hmem
      constructor
      · exact fun h => hclash (.request hr hregistered hargs (.inl h))
      · exact fun h => hclash (.request hr hregistered hargs (.inr h))

/-- A session of what was discovered fails exactly if a request or an exception takes a type that
has a rule already, and otherwise answers every request. -/
theorem session_fails_iff_clash
    {s : Store} {m : Machine} {o : Discovery.Options} {inputs : List Path}
    {specs : List InstanceSpec} {found : Discovery.Findings}
    (hfound : (Discovery.run s m o inputs specs).result = .ok found) (erase : Bool) :
    ((∃ e, run found.requests found.extraExceptions erase = .error e) ↔
        Clash found.requests found.extraExceptions) ∧
      ∀ outcome, run found.requests found.extraExceptions erase = .ok outcome →
        List.Forall₂ Request.Answered found.requests outcome.results := by
  obtain ⟨hkinds, hbare⟩ := Discovery.plain_of_run hfound
  obtain ⟨known, hknown⟩ := exists_exportedTypes hkinds
  constructor
  · rw [exists_run_error_iff, exists_start_iff hknown, apart_iff_not_clash hknown hbare, not_not]
  · intro outcome houtcome
    obtain ⟨ctx, -, rfl⟩ := run_eq_ok_iff.1 houtcome
    rw [exportAll, List.forall₂_map_right_iff, List.forall₂_same]
    exact fun r _ => r.answered_fulfil ctx

section App

/-- A directory with two class files. -/
def appStore : Store where
  current := []
  nodes := [((1, ["in"]), .dir), ((2, ["in", "app"]), .dir),
    ((3, ["in", "app", "Fine.class"]), .file (.text "")),
    ((3, ["in", "app", "Oops.class"]), .file (.text ""))]

def appInput : Path := ⟨.current, ["in"]⟩

def appLocations : Dictionary String Location :=
  [("app.Fine", { path := "in/app/Fine.class" }), ("app.Oops", { path := "in/app/Oops.class" })]

/-- The annotations of a class that is to be exported. -/
def exportMark : List Compiled.Annotation :=
  [{ type := Discovery.usualExportMarker }]

/-- What is told about a class of the directory. -/
def appModel (name : String) (marks : List Compiled.Annotation) : Compiled.ClassModel where
  package := "app"
  simpleName := .ok name
  annotations := .ok marks

/-- A class that is to be exported, and an exception with the given annotations. -/
def appMachine (marks : List Compiled.Annotation) : Machine where
  classes := [("app.Fine", appModel "Fine" exportMark),
    ("app.Oops", { appModel "Oops" marks with isThrowable := true })]

theorem locations_app : ClassFile.locations appStore [appInput] = .ok appLocations := by
  have hplaces : (appStore.below appInput).map Prod.fst =
      [["app"], ["app", "Fine.class"], ["app", "Oops.class"]] := by decide +kernel
  have hsorted : ((appStore.below appInput).map Prod.fst).mergeSort Path.partsLe =
      [["app"], ["app", "Fine.class"], ["app", "Oops.class"]] := by
    rw [hplaces]
    exact List.mergeSort_of_pairwise (by decide +kernel)
  have hfound : ClassFile.inInput appStore appInput =
      .ok (appLocations.map fun entry => ⟨entry.1, entry.2⟩) := by
    unfold ClassFile.inInput ClassFile.inDirectory
    dsimp only
    rw [hsorted]
    rfl
  rw [ClassFile.locations, List.mapM_cons, hfound]
  rfl

/-- What is found among the two classes of the directory. -/
def appFound (classes : Compiled.Classes) (specs : List InstanceSpec) : Discovery.Findings :=
  Discovery.Inspection.complete ⟨appLocations, Discovery.inspectAll classes {} appLocations⟩ classes
    specs

/-- What is discovered in the application, whatever its classes are. -/
theorem result_run_app (classes : Compiled.Classes) (specs : List InstanceSpec) :
    (Discovery.run appStore { classes := classes } {} [appInput] specs).result =
      .ok (appFound classes specs) := by
  have hclasspath : Discovery.classpathOf appStore ⟨.current, ["extracted"]⟩ [appInput] =
      .ok { entries := ["in"] } := rfl
  have hasked : Discovery.askAll (fun _ => none) (Discovery.machineCalls false .usual ["in"]) =
      ([.start .usual ["in"]], .ok ()) := rfl
  simp only [Discovery.run, Discovery.inspectInputs, hclasspath, hasked, locations_app, appFound]

/-- The request for a class of the directory. -/
def appRequest (name path : String) : Request :=
  .declaration (.cls { package := "app", simpleName := name, origin := some { path } }) [{ path }]

def appFine : Request := appRequest "Fine" "in/app/Fine.class"

def appOops : Shape := { name := "Oops", package := "app" }

theorem session_fails_iff_clash_of_app :
    ∃ found outcome,
      (Discovery.run appStore (appMachine []) {} [appInput] []).result = .ok found ∧
        found.requests = [appFine] ∧ found.extraExceptions = [appOops] ∧
        run found.requests found.extraExceptions false = .ok outcome ∧
        ¬ Clash found.requests found.extraExceptions ∧
        List.Forall₂ Request.Answered found.requests outcome.results := by
  have hrequests : (appFound (appMachine []).classes []).requests = [appFine] := by decide +kernel
  have hexceptions : (appFound (appMachine []).classes []).extraExceptions = [appOops] := by
    decide +kernel
  have hfound := result_run_app (appMachine []).classes []
  obtain ⟨hclash, hanswers⟩ := session_fails_iff_clash hfound false
  obtain ⟨outcome, houtcome⟩ : ∃ outcome, run (appFound (appMachine []).classes []).requests
      (appFound (appMachine []).classes []).extraExceptions false = .ok outcome := by
    rw [hrequests, hexceptions]
    exact ⟨_, rfl⟩
  refine ⟨_, outcome, hfound, hrequests, hexceptions, houtcome, ?_, hanswers outcome houtcome⟩
  rw [← hclash, houtcome]
  simp

/-- An exception that is to be exported stops the session, although the other request could be
answered. -/
theorem exists_failing_session :
    ∃ found, (Discovery.run appStore (appMachine exportMark) {} [appInput] []).result = .ok found ∧
      (∃ e, run found.requests found.extraExceptions false = .error e) ∧
      ∃ r ∈ found.requests, ∃ outcome, run [r] found.extraExceptions false = .ok outcome := by
  have hrequests : (appFound (appMachine exportMark).classes []).requests =
      [appFine, appRequest "Oops" "in/app/Oops.class"] := by decide +kernel
  have hexceptions : (appFound (appMachine exportMark).classes []).extraExceptions = [appOops] := by
    decide +kernel
  refine ⟨_, result_run_app (appMachine exportMark).classes [], ?_⟩
  rw [hrequests, hexceptions]
  exact ⟨⟨_, rfl⟩, appFine, List.mem_cons_self, _, rfl⟩

end App

end Session

end Facade
