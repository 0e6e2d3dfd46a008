import Facade.Proofs.SessionStart

/-!
# What becomes of the classes that are found

A class that carries the export annotation should end as a request or as an error, and so should
every instantiation that is asked for.  Instantiations always do.  A class does unless the virtual
machine answers a question about it by an exception: then only a line of the log tells about it.

**Input.**  The inputs of a run, and what the virtual machine tells about the classes.

**Algorithm.**  The inspection of one class and the lookup of one instantiation each add a share to
what is found, and the findings of a run are all shares one after the other.

**Results.**
* `readable_of_answers`: a class about which every question is answered can be read.
* `inspect_marked` and `inspect_unmarked`: the share of one class.
* `specShare_settled`: the share of one instantiation.
* `marked_classes_are_accounted`: the findings of a run, class by class and instantiation by
  instantiation.
-/

namespace Facade

namespace Dictionary

variable {κ α : Type} [DecidableEq κ]

theorem mem_keys_putAllNew {d : Dictionary κ α} {entries : List (κ × α)} {key : κ} :
    key ∈ (d.putAllNew entries).keys ↔ key ∈ d.keys ∨ key ∈ entries.map Prod.fst := by
  induction entries generalizing d with
  | nil => simp [putAllNew]
  | cons entry rest ih =>
      have hstep : key ∈ (d.putNew entry.1 entry.2).keys ↔ key ∈ d.keys ∨ key = entry.1 := by
        rw [putNew]
        split
        · next hhas =>
            -- the key is there already
            have hmem := has_eq_true_iff.1 hhas
            exact ⟨.inl, fun h => h.elim id fun heq => heq ▸ hmem⟩
        · simp [keys]
      rw [putAllNew, ih, hstep, List.map_cons, List.mem_cons, or_assoc]

end Dictionary

namespace ClassFile

variable {s : Store} {inputs : List Path} {classes : Dictionary String Location}

/-- A class of one of the inputs, with the place where it is found. -/
def Listed (s : Store) (inputs : List Path) (f : Found) : Prop :=
  ∃ input ∈ inputs, ∃ found, inInput s input = .ok found ∧ f ∈ found

theorem locations_eq_ok
    (h : locations s inputs = .ok classes) :
    ∃ found, inputs.mapM (inInput s) = .ok found ∧
      classes = Dictionary.putAllNew [] (found.flatten.map fun f => (f.name, f.location)) := by
  obtain ⟨found, hfound, h⟩ := Outcome.bind_eq_ok_iff.1 h
  obtain rfl := Except.ok.inj h
  refine ⟨found, hfound, ?_⟩
  generalize ([] : Dictionary String Location) = known
  induction found.flatten generalizing known with
  | nil => rfl
  | cons f rest ih => exact ih (Dictionary.putNew known f.name f.location)

/-- The class files found in the inputs are those that are listed. -/
theorem mem_flatten_iff_listed {found : List (List Found)} {f : Found}
    (h : inputs.mapM (inInput s) = .ok found) :
    f ∈ found.flatten ↔ Listed s inputs f := by
  rw [List.mem_flatten]
  constructor
  · rintro ⟨l, hl, hf⟩
    obtain ⟨input, hinput, heq⟩ := Outcome.exists_of_mem_mapM h hl
    exact ⟨input, hinput, l, heq, hf⟩
  · rintro ⟨input, hinput, l, heq, hf⟩
    have hfound : List.Forall₂ (fun l input => inInput s input = .ok l) found inputs :=
      (Outcome.mapM_eq_ok_iff.1 h).flip
    obtain ⟨l', hl', heq'⟩ := Outcome.exists_left_of_forall₂ hfound hinput
    obtain rfl := Except.ok.inj (heq.symm.trans heq')
    exact ⟨l, hl', hf⟩

/-- Every class of the inputs has one entry, with a place where it is found. -/
theorem listed_of_locations
    (h : locations s inputs = .ok classes) :
    classes.keys.Nodup ∧
      (∀ entry ∈ classes, Listed s inputs ⟨entry.1, entry.2⟩) ∧
      ∀ f, Listed s inputs f → f.name ∈ classes.keys := by
  obtain ⟨found, hfound, rfl⟩ := locations_eq_ok h
  refine ⟨Dictionary.nodup_keys_putAllNew _ List.nodup_nil, ?_, ?_⟩
  · intro entry hentry
    rcases Dictionary.mem_putAllNew hentry with hnil | hentry
    · exact absurd hnil List.not_mem_nil
    · obtain ⟨f, hf, rfl⟩ := List.mem_map.1 hentry
      exact (mem_flatten_iff_listed hfound).1 hf
  · intro f hf
    refine Dictionary.mem_keys_putAllNew.2 (.inr ?_)
    rw [List.map_map]
    exact List.mem_map_of_mem ((mem_flatten_iff_listed hfound).2 hf)

end ClassFile

namespace Discovery

/-- What one class or one instantiation adds to what is found. -/
structure Share where
  requests : List Request := []
  diagnostics : List Diagnostic := []

/-- One request of the given kind, or one error. -/
def Share.IsSettled (share : Share) (answers : Request → Prop) : Prop :=
  (∃ r, answers r ∧ share = ⟨[r], []⟩) ∨ ∃ d, d.severity = .error ∧ share = ⟨[], [d]⟩

/-- Nothing but a refusal is raised when a class is inspected. -/
structure Readable (o : Options) (c : Compiled.Class) (location : Location) : Prop where
  specs : ∃ specs, o.specsOf c = .ok specs
  described : ∀ e, c.describe (some location) ≠ .error (.unreadable e)

/-- What a class adds: nothing unless it can be loaded and carries the annotation; then a request or
an error if it can be read, and otherwise only a line of the log. -/
structure ClassShare (classes : Compiled.Classes) (o : Options) (log : List Log.Line)
    (entry : String × Location) (share : Share) : Prop where
  silent : (∀ c, classes.load entry.1 = .ok c → o.marks c ≠ .ok true) → share = {}
  settled : ∀ c, classes.load entry.1 = .ok c → o.marks c = .ok true →
    (share.IsSettled (fun r => ∃ d, c.describe (some entry.2) = .ok d ∧
      r = .declaration d [entry.2]) ↔ Readable o c entry.2)
  lost : ∀ c, classes.load entry.1 = .ok c → o.marks c = .ok true →
    ¬ Readable o c entry.2 → share = {} ∧ ∃ message, skippingClass entry.1 message ∈ log

/-- What an instantiation adds: a request, or an error. -/
def SpecShare (classes : Compiled.Classes) (spec : InstanceSpec × Option Location)
    (share : Share) : Prop :=
  share.IsSettled fun r => ∃ c origin d sources, classes.load spec.1.className = .ok c ∧
    c.describe origin = .ok d ∧ r = .generics spec.1.name d spec.1.args sources

/-- The instantiations that the annotations of a class ask for, if they can be read. -/
def askedBy (classes : Compiled.Classes) (o : Options) (entry : String × Location) :
    List (InstanceSpec × Option Location) :=
  match classes.load entry.1 with
  | .error _ => []
  | .ok c =>
      match o.specsOf c with
      | .error _ => []
      | .ok specs => specs.map fun spec => (spec, some entry.2)

/-- All instantiations that are asked for, those asked for by text first. -/
def allAsked (classes : Compiled.Classes) (o : Options) (locations : Dictionary String Location)
    (specs : List InstanceSpec) : List (InstanceSpec × Option Location) :=
  specs.map (fun spec => (spec, none)) ++ locations.flatMap (askedBy classes o)

variable {classes : Compiled.Classes} {o : Options}

/-- A share with neither a request nor an error settles nothing. -/
theorem Share.not_isSettled_empty (answers : Request → Prop) :
    ¬ ({} : Share).IsSettled answers := by
  rintro (⟨r, -, h⟩ | ⟨d, -, h⟩)
  · simp at h
  · simp at h

/-- A class about which every question is answered can be read. -/
theorem readable_of_answers {c : Compiled.Class} (location : Location)
    (h : c.Answers) :
    Readable o c location where
  specs := Compiled.Class.exists_instanceSpecs o.genericsMarker h
  described := by
    intro e he
    rcases Compiled.Class.describe_ends c (some location) with ⟨d, hd⟩ | ⟨r, hr⟩ | ⟨-, hsilent⟩
    · simp [hd] at he
    · simp [hr] at he
    · exact hsilent h

theorem specs_inspect (entry : String × Location) :
    (inspect classes o entry.1 entry.2).specs = askedBy classes o entry := by
  rw [inspect, askedBy]
  cases classes.load entry.1 with
  | error e => rfl
  | ok c =>
      dsimp only
      cases o.specsOf c with
      | error e => rfl
      | ok specs =>
          dsimp only
          split
          · rfl
          · rfl
          · split <;> rfl

/-- What the inspection of a class adds to what is found. -/
def classShare (classes : Compiled.Classes) (o : Options) (entry : String × Location) : Share :=
  let seen := inspect classes o entry.1 entry.2
  ⟨seen.requests, seen.diagnostics⟩

/-- A class that carries the annotation adds one request or one error if it can be read, and
otherwise only a line of the log. -/
theorem inspect_marked {name : String} {location : Location} {c : Compiled.Class}
    (hload : classes.load name = .ok c)
    (hmark : o.marks c = .ok true) :
    (Readable o c location → (classShare classes o (name, location)).IsSettled fun r =>
        ∃ d, c.describe (some location) = .ok d ∧ r = .declaration d [location]) ∧
      (¬ Readable o c location → classShare classes o (name, location) = {} ∧
        ∃ message, skippingClass name message ∈ (inspect classes o name location).log) := by
  rw [classShare, inspect, hload]
  dsimp only
  cases hspecs : o.specsOf c with
  | error e =>
      refine ⟨fun h => ?_, fun _ => ⟨rfl, e.message, List.mem_singleton_self _⟩⟩
      obtain ⟨specs, h⟩ := h.specs
      simp [hspecs] at h
  | ok specs =>
      rw [hmark]
      dsimp only
      rcases Compiled.Class.describe_ends c (some location) with
        ⟨d, hd⟩ | ⟨r, hr⟩ | ⟨⟨e, he⟩, -⟩
      · rw [hd]
        refine ⟨fun _ => .inl ⟨_, ⟨d, rfl, rfl⟩, rfl⟩, fun h => absurd ?_ h⟩
        exact ⟨⟨specs, hspecs⟩, by simp [hd]⟩
      · rw [hr]
        refine ⟨fun _ => .inr ⟨_, rfl, rfl⟩, fun h => absurd ?_ h⟩
        exact ⟨⟨specs, hspecs⟩, by simp [hr]⟩
      · rw [he]
        refine ⟨fun h => absurd he (h.described e), fun _ => ⟨rfl, _, List.mem_singleton_self _⟩⟩

/-- A class that is not there or does not carry the annotation adds nothing. -/
theorem inspect_unmarked {entry : String × Location}
    (h : ∀ c, classes.load entry.1 = .ok c → o.marks c ≠ .ok true) :
    classShare classes o entry = {} := by
  rw [classShare, inspect]
  cases hload : classes.load entry.1 with
  | error e => rfl
  | ok c =>
      dsimp only
      cases o.specsOf c with
      | error e => rfl
      | ok specs =>
          dsimp only
          split
          · rfl
          · rfl
          · next hmark => exact absurd hmark (h c hload)

/-- What a class adds is told by whether it can be read. -/
theorem classShare_inspect {log : List Log.Line} {entry : String × Location}
    (hlog : ∀ line ∈ (inspect classes o entry.1 entry.2).log, line ∈ log) :
    ClassShare classes o log entry (classShare classes o entry) where
  silent := inspect_unmarked
  settled c hload hmark := by
    obtain ⟨hread, hunread⟩ := @inspect_marked classes o entry.1 entry.2 c hload hmark
    refine ⟨fun h => ?_, hread⟩
    by_contra hlost
    exact Share.not_isSettled_empty _ ((hunread hlost).1 ▸ h)
  lost c hload hmark hlost := by
    obtain ⟨hempty, message, hmessage⟩ :=
      (@inspect_marked classes o entry.1 entry.2 c hload hmark).2 hlost
    exact ⟨hempty, message, hlog _ hmessage⟩

/-- What looking up an instantiation adds to what is found. -/
def specShare (classes : Compiled.Classes) (locations : Dictionary String Location)
    (spec : InstanceSpec × Option Location) : Share :=
  match instanceRequest classes locations spec.1 spec.2 with
  | .ok r => ⟨[r], []⟩
  | .error refusal => ⟨[], [.ofRefusal refusal]⟩

/-- Every instantiation adds one request or one error. -/
theorem specShare_settled (locations : Dictionary String Location)
    (spec : InstanceSpec × Option Location) :
    SpecShare classes spec (specShare classes locations spec) := by
  rw [specShare]
  split
  · next r hr =>
      refine .inl ⟨r, ?_, rfl⟩
      unfold instanceRequest at hr
      dsimp only at hr
      split at hr
      · next d hdescribed =>
          obtain ⟨c, hload, hdescribe⟩ := Outcome.bind_eq_ok_iff.1 hdescribed
          exact ⟨c, _, d, _, hload, hdescribe, (Except.ok.inj hr).symm⟩
      · simp at hr
      · simp at hr
  · exact .inr ⟨_, rfl, rfl⟩

/-- The instantiations add their shares one after the other. -/
theorem foldl_addInstance (locations : Dictionary String Location)
    (asked : List (InstanceSpec × Option Location)) (found : Findings) :
    (asked.foldl (addInstance classes locations) found).requests =
        found.requests ++ (asked.map (specShare classes locations)).flatMap Share.requests ∧
      (asked.foldl (addInstance classes locations) found).diagnostics =
        found.diagnostics ++
          (asked.map (specShare classes locations)).flatMap Share.diagnostics := by
  induction asked generalizing found with
  | nil => simp
  | cons spec rest ih =>
      rw [List.foldl_cons, (ih _).1, (ih _).2, addInstance, List.map_cons, List.flatMap_cons,
        List.flatMap_cons, specShare]
      cases instanceRequest classes locations spec.1 spec.2 with
      | ok r => simp
      | error refusal => simp

/-- The classes add their shares one after the other. -/
theorem inspectAll_eq (locations : Dictionary String Location) :
    (inspectAll classes o locations).requests =
        (locations.map (classShare classes o)).flatMap Share.requests ∧
      (inspectAll classes o locations).diagnostics =
        (locations.map (classShare classes o)).flatMap Share.diagnostics ∧
      (inspectAll classes o locations).specs = locations.flatMap (askedBy classes o) ∧
      ∀ entry ∈ locations, ∀ line ∈ (inspect classes o entry.1 entry.2).log,
        line ∈ (inspectAll classes o locations).log := by
  induction locations with
  | nil => exact ⟨rfl, rfl, rfl, by simp⟩
  | cons entry rest ih =>
      obtain ⟨hrequests, hdiagnostics, hspecs, hlog⟩ := ih
      refine ⟨congrArg _ hrequests, congrArg _ hdiagnostics, ?_, ?_⟩
      · rw [List.flatMap_cons, ← specs_inspect, ← hspecs]
        rfl
      · intro e he line hline
        rcases List.mem_cons.1 he with rfl | he
        · exact List.mem_append_left _ hline
        · exact List.mem_append_right _ (hlog e he line hline)

/-- What is found, divided among the classes of the inputs and the instantiations that are asked
for. -/
structure Accounted (s : Store) (m : Machine) (o : Options) (inputs : List Path)
    (specs : List InstanceSpec) (found : Findings) (locations : Dictionary String Location)
    (classShares specShares : List Share) : Prop where
  nodup : locations.keys.Nodup
  listed : ∀ entry ∈ locations, ClassFile.Listed s inputs ⟨entry.1, entry.2⟩
  all_listed : ∀ f, ClassFile.Listed s inputs f → f.name ∈ locations.keys
  requests : found.requests = (classShares ++ specShares).flatMap Share.requests
  diagnostics : found.diagnostics = (classShares ++ specShares).flatMap Share.diagnostics
  classes : List.Forall₂ (ClassShare m.classes o (run s m o inputs specs).log) locations classShares
  specs : List.Forall₂ (SpecShare m.classes) (allAsked m.classes o locations specs) specShares

/-- Every class of the inputs that can be loaded and carries the annotation adds one request or one
error exactly if nothing but a refusal is raised when it is inspected, which is so if every question
about it is answered; every instantiation that is asked for adds one request or one error. -/
theorem marked_classes_are_accounted
    {s : Store} {m : Machine} {inputs : List Path} {specs : List InstanceSpec} {found : Findings}
    (h : (run s m o inputs specs).result = .ok found) :
    (∃ locations classShares specShares,
        Accounted s m o inputs specs found locations classShares specShares) ∧
      ∀ c location, c.Answers → Readable o c location := by
  obtain ⟨locations, hlocations, rfl, hlog⟩ := run_eq_ok h
  obtain ⟨hrequests, hdiagnostics, hspecs, hlines⟩ := @inspectAll_eq m.classes o locations
  obtain ⟨hrequests', hdiagnostics'⟩ := @foldl_addInstance m.classes locations
    (allAsked m.classes o locations specs) (inspectAll m.classes o locations).toFindings
  obtain ⟨hnodup, hlisted, hall⟩ := ClassFile.listed_of_locations hlocations
  have hasked : Inspection.complete ⟨locations, inspectAll m.classes o locations⟩ m.classes specs =
      (allAsked m.classes o locations specs).foldl (addInstance m.classes locations)
        (inspectAll m.classes o locations).toFindings := by
    rw [allAsked, ← hspecs]
    rfl
  refine ⟨⟨locations, locations.map (classShare m.classes o),
    (allAsked m.classes o locations specs).map (specShare m.classes locations),
    hnodup, hlisted, hall, ?_, ?_, ?_, ?_⟩, fun c location => readable_of_answers location⟩
  · rw [hasked, hrequests', hrequests, List.flatMap_append]
  · rw [hasked, hdiagnostics', hdiagnostics, List.flatMap_append]
  · rw [List.forall₂_map_right_iff, List.forall₂_same]
    intro entry hentry
    exact classShare_inspect fun line hline => hlog line (hlines entry hentry line hline)
  · rw [List.forall₂_map_right_iff, List.forall₂_same]
    exact fun spec _ => specShare_settled locations spec

section App

open Session

/-- An instantiation of a class that does not exist. -/
def goneSpec : InstanceSpec := ⟨"Gone", "app.Gone", [.string]⟩

theorem marked_classes_are_accounted_of_app :
    ∃ found,
      (run appStore (appMachine []) {} [appInput] [goneSpec]).result = .ok found ∧
        found.requests = [appFine] ∧ found.diagnostics.length = 1 ∧
        ∃ locations classShares specShares,
          Accounted appStore (appMachine []) {} [appInput] [goneSpec] found locations classShares
            specShares := by
  have hfound := result_run_app (appMachine []).classes [goneSpec]
  exact ⟨_, hfound, by decide +kernel, by decide +kernel, (marked_classes_are_accounted hfound).1⟩

/-- A class that carries the annotation, with a method whose results are of a class that is not
there: when the machine is asked for the methods, it raises an exception. -/
def orphanClasses : Compiled.Classes :=
  [("app.Fine",
    { appModel "Fine" exportMark with
      methods := .error (.raised "java.lang.NoClassDefFoundError: app/Gone") })]

/-- A class that carries the annotation is lost. -/
theorem exists_unaccounted_class :
    ∃ found c,
      (run appStore { classes := orphanClasses } {} [appInput] []).result = .ok found ∧
        ClassFile.Listed appStore [appInput] ⟨"app.Fine", ⟨"in/app/Fine.class", none⟩⟩ ∧
        orphanClasses.load "app.Fine" = .ok c ∧ Options.marks {} c = .ok true ∧
        found.requests = [] ∧ found.diagnostics = [] := by
  have hlisted := (ClassFile.listed_of_locations locations_app).2.1
  exact ⟨_, _, result_run_app orphanClasses [], hlisted _ List.mem_cons_self, rfl, rfl,
    by decide +kernel, by decide +kernel⟩

end App

end Discovery

end Facade
