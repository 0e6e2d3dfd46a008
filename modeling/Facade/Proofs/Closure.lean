import Facade.Proofs.FileContents

/-!
# References between the files of a session

The files of a session refer to each other: to the wrappers of other declarations and to their
conversion functions.  The rules for them are registered before it is known which requests succeed,
and the choice of a sealed class is written for all its subclasses.  A reference can therefore
dangle, but only where the request that it leads to fails or is missing.

**Input.**  A session that has started, and a request that succeeds.

**Results.**
* `declared_of_registered?`: what a request registers is declared if the request succeeds.
* `covers_session`: the wrappers that the requests register and the subclasses of a sealed class
  are all that the file of a declaration needs of its session.
-/

namespace Facade

open Wrapper Source Mapping Code

section Vocabulary

variable (requests : List Request) (ctx : Context)

/-- The wrapper of a native type is declared by the file of a successful request. -/
def Declared (native : Shape) (name : String) : Prop :=
  ∃ q ∈ requests, ∃ F, (q.fulfil ctx).file = some F ∧
    Declares F native { name, package := ctx.facadePackage native.package }

/-- A request registers the wrapper of a native type, which is declared if that request
succeeds. -/
def Promised (native : Shape) (name : String) : Prop :=
  ∃ q ∈ requests, q.registered? = some (native, name) ∧
    ((q.fulfil ctx).ok = true → Declared requests ctx native name)

/-- The wrapper of a native type is declared if any request that registers it succeeds. -/
def Awaited (native : Shape) (name : String) : Prop :=
  ∀ q ∈ requests, q.registered? = some (native, name) → (q.fulfil ctx).ok = true →
    Declared requests ctx native name

variable (wrapped chosen : Shape → String → Prop)

/-- The types of the standard library that files refer to on their own account. -/
def suppliedKeys : List Key :=
  Table.shownKeys ++ [Shape.string.key, Shape.jsExport.key]

/-- Where a type comes from that the file of a declaration refers to. -/
inductive Referable (d : Declaration) (u : Shape) : Prop
  | mentioned (s part : Shape)
      (hs : s ∈ d.mentions)
      (hpart : part ∈ s.parts)
      (hkey : u.key = part.key)
  | supplied
      (hkey : u.key ∈ suppliedKeys)
  | wrapper (native : Shape) (name : String)
      (hwrapped : wrapped native name)
      (hkey : u.key = wrapperKey native name ctx.erase)

/-- Where a method comes from that the file of a declaration calls without arguments. -/
inductive Callable (d : Declaration) (target : Expr) (m : String) : Prop
  | forwarded (delegate member : String)
      (hdelegate : delegate ∈ d.delegates)
      (hmember : member ∈ d.forwarded)
      (htarget : target = .name delegate)
      (hm : m = Name.safe member)
  | library
      (hm : m ∈ libraryMethods)
  | conversion (native : Shape) (name : String)
      (hwrapped : wrapped native name)
      (hm : m = Name.importer name ∨ m = Name.exporter name)

/-- A branch of a choice is that of a subclass under its own name. -/
def Dispatched (d : Declaration) (b : Shape × String) : Prop :=
  ∃ s ∈ d.subclasses, (b = importBranch ctx s ∨ b = exportBranch s) ∧ chosen s.shape s.simpleName

/-- What the file of a declaration uses, with the wrappers of `wrapped` and the subclasses of
`chosen`. -/
def declarationVocabulary (d : Declaration) : Vocabulary where
  type := Referable ctx wrapped d
  method := Callable wrapped d
  branch := Dispatched ctx chosen d

end Vocabulary

section Session

variable {requests : List Request} {extra : List Shape} {erase : Bool} {ctx : Context}
variable {wrapped chosen : Shape → String → Prop}

/-- A request that is registered under a name and succeeds declares the wrapper of that name. -/
theorem declared_of_registered? {q : Request} {native : Shape} {name : String}
    (hnamed : q.IsNamed)
    (hq : q ∈ requests)
    (hregistered : q.registered? = some (native, name))
    (hok : (q.fulfil ctx).ok = true) :
    Declared requests ctx native name := by
  obtain ⟨F, hfile⟩ := Option.isSome_iff_exists.1 hok
  obtain ⟨hown, hdeclares⟩ := Request.build_declares (Request.build_of_fulfil hfile) hnamed
  rw [hown] at hregistered
  obtain ⟨rfl, rfl⟩ := Prod.mk.inj (Option.some.inj hregistered)
  exact ⟨q, hq, F, hfile, hdeclares⟩

/-- A type without arguments is known as soon as it may be referred to. -/
theorem knows_of_args_nil {d : Declaration} {s : Shape}
    (hargs : s.args = [])
    (hs : Referable ctx wrapped d s) :
    (declarationVocabulary ctx wrapped chosen d).Knows s := by
  intro u hu
  obtain rfl : u = s := by simpa [parts_eq, hargs] using hu
  exact hs

/-- What the table of a session shows was registered by one of its requests. -/
theorem covers_session {r : Request} {d : Declaration}
    (hctx : Session.start requests extra erase = .ok ctx)
    (hwrapped : ∀ q ∈ requests, ∀ native name, q.registered? = some (native, name) →
      wrapped native name)
    (hchosen : ∀ s ∈ d.subclasses, chosen s.shape s.simpleName)
    (hr : r ∈ requests)
    (hown : ∀ native name, Session.nativeType d = .ok (native, name) →
      r.registered? = some (native, name)) :
    Covers (declarationVocabulary ctx wrapped chosen d) ctx d := by
  obtain ⟨known, hknown, hT, rfl⟩ := Session.start_eq_ok hctx
  have hmember : ∀ native name, (native, name) ∈ known → wrapped native name := by
    intro native name hmem
    obtain ⟨q, hq, hregistered⟩ := Session.mem_exportedTypes hknown hmem
    exact hwrapped q hq native name hregistered
  have hself : ∀ native name, Session.nativeType d = .ok (native, name) → wrapped native name :=
    fun native name hnative => hwrapped r hr native name (hown native name hnative)
  constructor
  case native =>
    intro s hs u hu
    exact .mentioned s u hs hu rfl
  case shown =>
    intro s hs s' hs' u hu
    cases Table.exported_parts hT s s' hs' u hu with
    | kept part hpart hkey => exact .mentioned s part hs hpart hkey
    | builtin hkey => exact .supplied (List.mem_append_left _ hkey)
    | wrapper native name hmem hkey => exact .wrapper native name (hmember native name hmem) hkey
  case convert =>
    refine Table.convert_linked hT ?_ ?_
    · intro x m hm
      exact .library hm
    · intro native name hmem x
      exact ⟨.conversion native name (hmember native name hmem) (.inl rfl),
        .conversion native name (hmember native name hmem) (.inr rfl)⟩
  case forward =>
    intro delegate hdelegate member hforwarded
    exact .forwarded delegate member hdelegate hforwarded rfl rfl
  case wrapper =>
    intro native name hnative nullable
    exact knows_of_args_nil rfl (.wrapper native name (hself native name hnative) rfl)
  case exporter =>
    intro native name hnative x
    exact .conversion native name (hself native name hnative) (.inr rfl)
  case branch =>
    intro s hs
    exact ⟨⟨s, hs, .inl rfl, hchosen s hs⟩, ⟨s, hs, .inr rfl, hchosen s hs⟩⟩
  case array =>
    intro s hs u hu
    rcases Table.parts_arrayOf_cases hu with hkey | hu
    · exact .supplied (by simp [suppliedKeys, Table.shownKeys, hkey])
    · exact hs u hu
  case string => exact knows_of_args_nil rfl (.supplied (by simp [suppliedKeys]))
  case jsExport => exact knows_of_args_nil rfl (.supplied (by simp [suppliedKeys]))

/-- The references of a file lead to requests of the session.  They are closed once all requests
succeed and the subclasses of a sealed class are exported under their own names. -/
theorem references_lead_to_requests {r : Request} {F : File}
    (hctx : Session.start requests extra erase = .ok ctx)
    (hnamed : ∀ q ∈ requests, q.IsNamed)
    (hr : r ∈ requests)
    (hfile : (r.fulfil ctx).file = some F) :
    ∃ d, r.subject = .ok d ∧
      F.Uses (declarationVocabulary ctx (Promised requests ctx) (Awaited requests ctx) d) ∧
      ((∀ q ∈ requests, (q.fulfil ctx).ok = true) →
        (∀ s ∈ d.subclasses, ∃ q ∈ requests, q.registered? = some (s.shape, s.simpleName)) →
        F.Uses (declarationVocabulary ctx (Declared requests ctx) (Declared requests ctx) d)) := by
  obtain ⟨d, hd, hbuild⟩ := Outcome.bind_eq_ok_iff.1 (Request.build_of_fulfil hfile)
  have hown : ∀ native name, Session.nativeType d = .ok (native, name) →
      r.registered? = some (native, name) := fun native name =>
    Request.registered?_of_subject hd (hnamed r hr) (ofDeclaration_declares hbuild).1
  refine ⟨d, hd, ?_, ?_⟩
  · refine (ofDeclaration_within (covers_session hctx ?_ ?_ hr hown) hbuild).uses
    · intro q hq native name hregistered
      exact ⟨q, hq, hregistered, declared_of_registered? (hnamed q hq) hq hregistered⟩
    · intro s hs q hq hregistered hok
      exact declared_of_registered? (hnamed q hq) hq hregistered hok
  · intro hall hsubclasses
    refine (ofDeclaration_within (covers_session hctx ?_ ?_ hr hown) hbuild).uses
    · intro q hq native name hregistered
      exact declared_of_registered? (hnamed q hq) hq hregistered (hall q hq)
    · intro s hs
      obtain ⟨q, hq, hregistered⟩ := hsubclasses s hs
      exact declared_of_registered? (hnamed q hq) hq hregistered (hall q hq)

end Session

section Zoo

/-- The root of a sealed hierarchy with one subclass. -/
def animalRoot : SealedDecl :=
  { package := "zoo", simpleName := "Animal", subclasses := [⟨"zoo", "Dog"⟩] }

def animal : Request :=
  .declaration (.sealed animalRoot) []

/-- The subclass, which refers back to the root. -/
def dog : Request :=
  .declaration
    (.cls { package := "zoo", simpleName := "Dog",
            supers := [{ type := { name := "Animal", package := "zoo" }, isClass := true,
                         arguments := some [] }],
            properties := [{ name := "friends",
                             type := .listOf { name := "Animal", package := "zoo" } }] }) []

theorem ok_fulfil_zoo {ctx : Context}
    (hctx : Session.start [animal, dog] [] false = .ok ctx) :
    (animal.fulfil ctx).ok = true ∧ (dog.fulfil ctx).ok = true := by
  obtain rfl := Except.ok.inj hctx
  decide +kernel

theorem references_lead_to_requests_of_animal :
    (∀ q ∈ [animal, dog], q.IsNamed) ∧ animal ∈ [animal, dog] ∧
      ∃ ctx, Session.start [animal, dog] [] false = .ok ctx ∧
        ∃ F, (animal.fulfil ctx).file = some F ∧
          F.Uses (declarationVocabulary ctx (Declared [animal, dog] ctx)
            (Declared [animal, dog] ctx) (.sealed animalRoot)) := by
  have hnamed : ∀ q ∈ [animal, dog], q.IsNamed := by decide
  obtain ⟨ctx, hctx⟩ : ∃ ctx, Session.start [animal, dog] [] false = .ok ctx := ⟨_, rfl⟩
  obtain ⟨hanimal, hdog⟩ := ok_fulfil_zoo hctx
  obtain ⟨F, hfile⟩ := Option.isSome_iff_exists.1 hanimal
  refine ⟨hnamed, List.mem_cons_self, ctx, hctx, F, hfile, ?_⟩
  obtain ⟨d, hd, -, hclosed⟩ := references_lead_to_requests hctx hnamed List.mem_cons_self hfile
  obtain rfl : .sealed animalRoot = d := Except.ok.inj hd
  refine hclosed ?_ ?_
  · simpa using ⟨hanimal, hdog⟩
  · intro s hs
    obtain rfl := List.mem_singleton.1 hs
    exact ⟨dog, List.mem_cons_of_mem _ List.mem_cons_self, rfl⟩

theorem ok_fulfil_animal {ctx : Context}
    (hctx : Session.start [animal] [] false = .ok ctx) :
    (animal.fulfil ctx).ok = true := by
  obtain rfl := Except.ok.inj hctx
  decide +kernel

/-- A sealed class can be exported without its subclasses: its file then tests for a wrapper and
calls a function that no file of the session declares. -/
theorem exists_dangling_branch :
    ∃ requests ctx, Session.start requests [] false = .ok ctx ∧
      ∃ r ∈ requests, ∃ F, (r.fulfil ctx).file = some F ∧
        ∃ branches unknown type function, Expr.dispatch branches unknown ∈ F.code ∧
          (type, function) ∈ branches ∧
          ∀ q ∈ requests, ∀ F', (q.fulfil ctx).file = some F' →
            F'.type? type.name = none ∧ F'.function? function = none := by
  obtain ⟨ctx, hctx⟩ : ∃ ctx, Session.start [animal] [] false = .ok ctx := ⟨_, rfl⟩
  obtain ⟨F, hfile⟩ := Option.isSome_iff_exists.1 (ok_fulfil_animal hctx)
  have hbuild : ofSealed ctx animalRoot = .ok F := Request.build_of_fulfil hfile
  obtain ⟨base, hbase, hF⟩ := ofSealed_eq_ok hbuild
  have hname : base.name = "Animal" := name_of_sealedType hbase
  refine ⟨[animal], ctx, hctx, animal, List.mem_cons_self, F, hfile,
    [importBranch ctx ⟨"zoo", "Dog"⟩], "Animal", (importBranch ctx ⟨"zoo", "Dog"⟩).1, "importDog",
    ?_, List.mem_cons_self, ?_⟩
  · rw [hF]
    exact List.mem_flatMap.2 ⟨_, List.mem_cons_of_mem _ List.mem_cons_self, List.mem_cons_self⟩
  · intro q hq F' hfile'
    obtain rfl := List.mem_singleton.1 hq
    obtain rfl : F = F' := Option.some.inj (hfile.symm.trans hfile')
    rw [hF]
    constructor
    · simp [File.type?, File.types, fileOf, hname, importBranch]
    · simp [File.function?, File.functions, fileOf, importFunction, exportFunction, Name.importer,
        Name.exporter, animalRoot]

end Zoo

end Facade
