import Facade.Proofs.Overriding
import Mathlib.Data.List.Pairwise

/-!
# Types that the files of a session declare

Besides its wrapper, the file of an interface declares two adapters and the file of an enumeration
an object that holds the entries.  Their names are made from the name of the wrapper.  Only the
holder is compared with the other declarations of the session, and only with the names that the
requests registered.

**Input.**  A session that has started, whose requests ask for wrappers of different names or in
different packages.

**Results.**
* `typeKeys_of_build`: the types of a file, by package and name.
* `hidden_of_declares`: a wrapper goes by the name of a holder only if another request registers its
  type under another name.
* `declared_types_distinct_iff`: when two types of the session have the same package and name.
-/

namespace Facade

open Wrapper Source Mapping

section Names

theorem importedAdapter_ne (name : String) :
    name ≠ importedAdapter name := by
  intro h
  simpa [importedAdapter] using congrArg String.length h

theorem exportedAdapter_injective {name other : String}
    (h : exportedAdapter name = exportedAdapter other) :
    name = other :=
  (String.append_right_inj "Exported").1 h

theorem importedAdapter_injective {name other : String}
    (h : importedAdapter name = importedAdapter other) :
    name = other :=
  (String.append_right_inj "Imported").1 h

theorem entriesHolder_injective {name other : String}
    (h : Name.entriesHolder name = Name.entriesHolder other) :
    name = other :=
  (String.append_left_inj "s").1 h

/-- The two adapters have different names, whatever interfaces they are for. -/
theorem exportedAdapter_ne_importedAdapter (name other : String) :
    exportedAdapter name ≠ importedAdapter other := by
  intro h
  have hhead := congrArg (fun s => s.toList.head?) h
  simp [exportedAdapter, importedAdapter] at hhead

end Names

namespace Declaration

/-- Whether a declaration is an interface. -/
def isInterface : Declaration → Bool
  | interface _ => true
  | _ => false

/-- Whether a declaration is an enumeration. -/
def isEnumeration : Declaration → Bool
  | enumeration _ => true
  | _ => false

/-- The names of the types that the file of a declaration declares besides its wrapper. -/
def companions (d : Declaration) (name : String) : List String :=
  match d with
  | interface _ => [exportedAdapter name, importedAdapter name]
  | enumeration _ => [Name.entriesHolder name]
  | _ => []

/-- Besides the wrapper, an interface declares its adapters and an enumeration its holder. -/
theorem mem_companions_iff {d : Declaration} {name other : String} :
    other ∈ d.companions name ↔
      d.isInterface ∧ (other = exportedAdapter name ∨ other = importedAdapter name) ∨
        d.isEnumeration ∧ other = Name.entriesHolder name := by
  cases d <;> simp [companions, isInterface, isEnumeration]

theorem not_isEnumeration_of_isInterface {d : Declaration}
    (h : d.isInterface) :
    ¬ d.isEnumeration := by
  cases d <;> simp_all [isInterface, isEnumeration]

end Declaration

/-- The types that a file declares, by package and name. -/
def Source.File.typeKeys (F : File) : List Key :=
  F.types.map fun t => ⟨F.package, t.name⟩

/-- The types that the files of results declare, by package and name. -/
def declaredTypes (results : List ExportResult) : List Key :=
  results.flatMap fun r => r.file.toList.flatMap File.typeKeys

namespace Request

/-- The name of the wrapper that a request asks for; an empty name counts as none. -/
def exportName : Request → String
  | .generics name d _ _ => if name.isEmpty then d.header.simpleName else name
  | .declaration (.cls d) _ => d.exportedName
  | .declaration (.interface d) _ => d.exportedName
  | .declaration d _ => d.header.simpleName

/-- The package of the wrapper that a request asks for. -/
def exportPackage (r : Request) (erase : Bool) : String :=
  Name.facadePackage r.decl.header.package erase

/-- The wrapper that a request asks for, by package and name. -/
def exportKey (r : Request) (erase : Bool) : Key :=
  ⟨r.exportPackage erase, r.exportName⟩

/-- The names of the types that the file of a request declares. -/
def typeNames (r : Request) : List String :=
  r.exportName :: r.decl.companions r.exportName

end Request

section Files

variable {ctx : Context} {F : File}

/-- The file of a declaration declares its wrapper and the companions. -/
theorem typeKeys_of_ofDeclaration {d : Declaration} {native : Shape} {name : String}
    (h : ofDeclaration ctx d = .ok F)
    (hnative : Session.nativeType d = .ok (native, name)) :
    F.typeKeys = (name :: d.companions name).map (Key.mk (ctx.facadePackage d.header.package)) := by
  cases d with
  | cls c =>
      obtain ⟨ancestry, constructors, properties, functions, -, -, -, -, rfl⟩ := ofClass_eq_ok h
      obtain ⟨-, rfl⟩ := Prod.mk.inj (Except.ok.inj hnative)
      rfl
  | interface i =>
      obtain ⟨-, shown, outward, inward, hshown, houtward, hinward, rfl⟩ := ofInterface_eq_ok h
      obtain ⟨-, rfl⟩ := Prod.mk.inj (Except.ok.inj hnative)
      have houter : outward.name = exportedAdapter i.exportedName := name_of_adapter houtward
      have hinner : inward.name = importedAdapter i.exportedName := name_of_adapter hinward
      simp [File.typeKeys, File.types, fileOf, Declaration.companions, Declaration.header,
        name_of_shownInterface hshown, houter, hinner]
  | sealed d =>
      obtain ⟨base, hbase, rfl⟩ := ofSealed_eq_ok h
      obtain ⟨-, rfl⟩ := Prod.mk.inj (Except.ok.inj hnative)
      simp [File.typeKeys, File.types, fileOf, Declaration.companions, Declaration.header,
        name_of_sealedType hbase]
  | enumeration e =>
      obtain rfl := ofEnumeration_eq_ok h
      obtain ⟨-, rfl⟩ := Prod.mk.inj (Except.ok.inj hnative)
      rfl
  | other kind header => simp [ofDeclaration] at h

/-- An instance keeps the kind and the package of its declaration. -/
theorem exportName_of_subject {r : Request} {d : Declaration} {native : Shape} {name : String}
    (hd : r.subject = .ok d)
    (hnative : Session.nativeType d = .ok (native, name)) :
    r.exportName = name ∧ r.decl.header.package = d.header.package ∧
      r.decl.companions = d.companions := by
  cases r with
  | declaration d' sources =>
      obtain rfl : d' = d := Except.ok.inj hd
      cases d' with
      | other kind header => simp [Session.nativeType] at hnative
      | _ =>
          obtain ⟨-, rfl⟩ := Prod.mk.inj (Except.ok.inj hnative)
          exact ⟨rfl, rfl, rfl⟩
  | generics name' d' args sources =>
      rw [Request.subject, Outcome.mapError_eq_ok_iff] at hd
      cases d' with
      | cls c =>
          obtain ⟨b, -, hd⟩ := Outcome.bind_eq_ok_iff.1 hd
          obtain rfl := Except.ok.inj hd
          obtain ⟨-, rfl⟩ := Prod.mk.inj (Except.ok.inj hnative)
          exact ⟨rfl, rfl, rfl⟩
      | interface i =>
          obtain ⟨b, -, hd⟩ := Outcome.bind_eq_ok_iff.1 hd
          obtain rfl := Except.ok.inj hd
          obtain ⟨-, rfl⟩ := Prod.mk.inj (Except.ok.inj hnative)
          exact ⟨rfl, rfl, rfl⟩
      | _ => simp [Declaration.instantiate] at hd

/-- The types in the file of a request can be told from the request. -/
theorem Request.typeKeys_of_build {r : Request}
    (h : r.build ctx = .ok F) :
    F.typeKeys = r.typeNames.map (Key.mk (r.exportPackage ctx.erase)) := by
  obtain ⟨d, hd, hbuild⟩ := Outcome.bind_eq_ok_iff.1 h
  obtain ⟨-, native, name, hnative, -⟩ := ofDeclaration_declares hbuild
  obtain ⟨hname, hpackage, hcompanions⟩ := exportName_of_subject hd hnative
  rw [typeKeys_of_ofDeclaration hbuild hnative, typeNames, exportPackage, hname, hpackage,
    hcompanions]
  rfl

/-- No request declares a type twice. -/
theorem Request.nodup_typeNames (r : Request) :
    r.typeNames.Nodup := by
  rw [typeNames]
  cases r.decl with
  | interface i =>
      simp [Declaration.companions, exportedAdapter_ne, importedAdapter_ne,
        exportedAdapter_ne_importedAdapter]
  | enumeration e => simp [Declaration.companions, ne_entriesHolder]
  | _ => simp [Declaration.companions]

/-- The types that a session declares are those of the requests that succeed. -/
theorem Request.mem_types_iff {r : Request} {k : Key} :
    k ∈ (r.fulfil ctx).file.toList.flatMap File.typeKeys ↔
      (r.fulfil ctx).ok = true ∧ k.package = r.exportPackage ctx.erase ∧ k.name ∈ r.typeNames := by
  rw [ExportResult.ok]
  cases hfile : (r.fulfil ctx).file with
  | none => simp
  | some F =>
      have hkeys := typeKeys_of_build (build_of_fulfil hfile)
      obtain ⟨package, name⟩ := k
      simp only [Option.toList_some, List.flatMap_cons, List.flatMap_nil, List.append_nil, hkeys,
        List.mem_map, Key.mk.injEq, Option.isSome_some, true_and]
      constructor
      · rintro ⟨name', hname, rfl, rfl⟩
        exact ⟨rfl, hname⟩
      · rintro ⟨rfl, hname⟩
        exact ⟨name, hname, rfl, rfl⟩

theorem Request.nodup_types (ctx : Context) (r : Request) :
    ((r.fulfil ctx).file.toList.flatMap File.typeKeys).Nodup := by
  cases hfile : (r.fulfil ctx).file with
  | none => simp
  | some F =>
      simp only [Option.toList_some, List.flatMap_cons, List.flatMap_nil, List.append_nil,
        typeKeys_of_build (build_of_fulfil hfile)]
      exact r.nodup_typeNames.map fun a b h => (Key.mk.inj h).2

theorem Request.exists_registered? {r : Request}
    (h : (r.fulfil ctx).ok = true) :
    ∃ name, r.registered? = some (r.native, name) := by
  obtain ⟨F, hfile⟩ := Option.isSome_iff_exists.1 h
  cases r with
  | generics name d args sources => exact ⟨name, rfl⟩
  | declaration d sources => exact ⟨F.name, (build_declares (build_of_fulfil hfile) trivial).1⟩

end Files

section Clashes

/-- Two requests of one package whose files declare types of the same name.  An adapter of an
interface may go by the name of a wrapper or of a holder.  The holder of an enumeration may go by
the name of a wrapper whose type is registered under another name. -/
inductive TypeClash (ctx : Context) (requests : List Request) : Prop
  | adapter {r q : Request} {name : String}
      (hr : r ∈ requests)
      (hq : q ∈ requests)
      (hok : (r.fulfil ctx).ok = true)
      (hok' : (q.fulfil ctx).ok = true)
      (hpackage : r.exportPackage ctx.erase = q.exportPackage ctx.erase)
      (hkind : r.decl.isInterface)
      (hname : name = exportedAdapter r.exportName ∨ name = importedAdapter r.exportName)
      (hname' : name = q.exportName ∨
        q.decl.isEnumeration ∧ name = Name.entriesHolder q.exportName) :
      TypeClash ctx requests
  | holder {r q other : Request} {name : String}
      (hr : r ∈ requests)
      (hq : q ∈ requests)
      (hok : (r.fulfil ctx).ok = true)
      (hok' : (q.fulfil ctx).ok = true)
      (hpackage : r.exportPackage ctx.erase = q.exportPackage ctx.erase)
      (hkind : r.decl.isEnumeration)
      (hname : Name.entriesHolder r.exportName = q.exportName)
      (hother : other ∈ requests)
      (hregistered : other.registered? = some (q.native, name))
      (hhidden : name ≠ q.exportName) :
      TypeClash ctx requests

variable {requests : List Request} {extra : List Shape} {erase : Bool} {ctx : Context}

/-- An enumeration succeeds only if its holder has the name of no wrapper known to the context. -/
theorem declares_eq_false_of_ok {r : Request}
    (hok : (r.fulfil ctx).ok = true)
    (hkind : r.decl.isEnumeration) :
    ctx.declares r.decl.header.package (Name.entriesHolder r.exportName) = false := by
  obtain ⟨F, hfile⟩ := Option.isSome_iff_exists.1 hok
  obtain ⟨d, hd, hbuild⟩ := Outcome.bind_eq_ok_iff.1 (Request.build_of_fulfil hfile)
  cases r with
  | generics name d' args sources =>
      rw [Request.subject, Outcome.mapError_eq_ok_iff] at hd
      cases d' with
      | enumeration e => simp [Declaration.instantiate] at hd
      | _ => simp [Request.decl, Declaration.isEnumeration] at hkind
  | declaration d' sources =>
      obtain rfl : d' = d := Except.ok.inj hd
      cases d' with
      | enumeration e =>
          obtain ⟨⟨⟩, hentries, -⟩ := Outcome.bind_eq_ok_iff.1 hbuild
          rw [checkEntries] at hentries
          split at hentries
          · simp at hentries
          · split at hentries
            · simp at hentries
            · next hdeclares => exact Bool.not_eq_true _ ▸ hdeclares
      | _ => simp [Request.decl, Declaration.isEnumeration] at hkind

/-- A name that is not taken belongs to no wrapper, unless the type of the wrapper is registered
under another name. -/
theorem hidden_of_declares {q : Request} {package : String}
    (hctx : Session.start requests extra erase = .ok ctx)
    (hq : q ∈ requests)
    (hok : (q.fulfil ctx).ok = true)
    (hpackage : ctx.facadePackage package = q.exportPackage ctx.erase)
    (hdeclares : ctx.declares package q.exportName = false) :
    ∃ other ∈ requests, ∃ name, other.registered? = some (q.native, name) ∧
      name ≠ q.exportName := by
  obtain ⟨known, T, hknown, -, rfl⟩ := Session.start_eq_ok_iff.1 hctx
  obtain ⟨name, hregistered⟩ := Request.exists_registered? hok
  obtain ⟨first, hfirst⟩ := Session.exists_mem_exportedTypes hknown hq hregistered
  obtain ⟨other, hother, hregistered'⟩ := Session.mem_exportedTypes hknown hfirst
  refine ⟨other, hother, first, hregistered', ?_⟩
  rintro rfl
  have hnative : q.native.package = q.decl.header.package := congrArg Key.package q.key_native
  rw [Context.declares, List.any_eq_false] at hdeclares
  refine hdeclares (q.native.package, q.exportName) (List.mem_map.2 ⟨_, hfirst, rfl⟩) ?_
  simp only [decide_true, Bool.true_and, decide_eq_true_eq, hnative]
  exact hpackage.symm

/-- A type that a file declares besides its wrapper has the name of a type of another file only in
a clash. -/
theorem clash_of_mem_companions {r q : Request} {name : String}
    (hctx : Session.start requests extra erase = .ok ctx)
    (hr : r ∈ requests)
    (hq : q ∈ requests)
    (hok : (r.fulfil ctx).ok = true)
    (hok' : (q.fulfil ctx).ok = true)
    (hpackage : r.exportPackage ctx.erase = q.exportPackage ctx.erase)
    (hne : r.exportName ≠ q.exportName)
    (hname : name ∈ r.decl.companions r.exportName)
    (hname' : name ∈ q.typeNames) :
    TypeClash ctx requests := by
  rcases Declaration.mem_companions_iff.1 hname with ⟨hkind, hadapter⟩ | ⟨hkind, hholder⟩
  · rcases List.mem_cons.1 hname' with hwrapper | hcompanion
    · exact .adapter hr hq hok hok' hpackage hkind hadapter (.inl hwrapper)
    · rcases Declaration.mem_companions_iff.1 hcompanion with ⟨-, hadapter'⟩ | hholder'
      · -- adapters have the same name only if their interfaces do
        refine absurd ?_ hne
        rcases hadapter with rfl | rfl
        · rcases hadapter' with heq | heq
          · exact exportedAdapter_injective heq
          · exact absurd heq (exportedAdapter_ne_importedAdapter _ _)
        · rcases hadapter' with heq | heq
          · exact absurd heq.symm (exportedAdapter_ne_importedAdapter _ _)
          · exact importedAdapter_injective heq
      · exact .adapter hr hq hok hok' hpackage hkind hadapter (.inr hholder')
  · rcases List.mem_cons.1 hname' with hwrapper | hcompanion
    · have hdeclares := declares_eq_false_of_ok hok hkind
      rw [← hholder, hwrapper] at hdeclares
      obtain ⟨other, hother, name', hregistered, hhidden⟩ :=
        hidden_of_declares hctx hq hok' hpackage hdeclares
      exact .holder hr hq hok hok' hpackage hkind (hholder.symm.trans hwrapper) hother hregistered
        hhidden
    · rcases Declaration.mem_companions_iff.1 hcompanion with ⟨hkind', hadapter'⟩ | ⟨-, hholder'⟩
      · exact .adapter hq hr hok' hok hpackage.symm hkind' hadapter' (.inr ⟨hkind, hholder⟩)
      · exact absurd (entriesHolder_injective (hholder.symm.trans hholder')) hne

/-- Files declare no type twice, as long as their wrappers differ and nothing clashes. -/
theorem disjoint_of_not_clash {r q : Request}
    (hctx : Session.start requests extra erase = .ok ctx)
    (hr : r ∈ requests)
    (hq : q ∈ requests)
    (hne : r.exportKey ctx.erase ≠ q.exportKey ctx.erase)
    (hclash : ¬ TypeClash ctx requests) :
    List.Disjoint ((r.fulfil ctx).file.toList.flatMap File.typeKeys)
      ((q.fulfil ctx).file.toList.flatMap File.typeKeys) := by
  intro k hk hk'
  obtain ⟨hok, hpackage, hname⟩ := Request.mem_types_iff.1 hk
  obtain ⟨hok', hpackage', hname'⟩ := Request.mem_types_iff.1 hk'
  have hsame : r.exportPackage ctx.erase = q.exportPackage ctx.erase :=
    hpackage.symm.trans hpackage'
  have hnames : r.exportName ≠ q.exportName := fun h => hne (Key.mk.injEq .. ▸ ⟨hsame, h⟩)
  refine hclash ?_
  rcases List.mem_cons.1 hname with hwrapper | hcompanion
  · rcases List.mem_cons.1 hname' with hwrapper' | hcompanion'
    · exact absurd (hwrapper.symm.trans hwrapper') hnames
    · exact clash_of_mem_companions hctx hq hr hok' hok hsame.symm hnames.symm hcompanion' hname
  · exact clash_of_mem_companions hctx hr hq hok hok' hsame hnames hcompanion hname'

/-- Two requests that clash are different, and their files declare a type of the same name. -/
theorem exists_common_of_clash
    (h : TypeClash ctx requests) :
    ∃ r ∈ requests, ∃ q ∈ requests, r ≠ q ∧
      ∃ k ∈ (r.fulfil ctx).file.toList.flatMap File.typeKeys,
        k ∈ (q.fulfil ctx).file.toList.flatMap File.typeKeys := by
  cases h with
  | @adapter r q name hr hq hok hok' hpackage hkind hname hname' =>
      have hown : name ∈ r.typeNames :=
        List.mem_cons_of_mem _ (Declaration.mem_companions_iff.2 (.inl ⟨hkind, hname⟩))
      have hother : name ∈ q.typeNames := by
        rcases hname' with rfl | hholder
        · exact List.mem_cons_self
        · exact List.mem_cons_of_mem _ (Declaration.mem_companions_iff.2 (.inr hholder))
      refine ⟨r, hr, q, hq, ?_, ⟨r.exportPackage ctx.erase, name⟩,
        Request.mem_types_iff.2 ⟨hok, rfl, hown⟩, Request.mem_types_iff.2 ⟨hok', hpackage, hother⟩⟩
      rintro rfl
      rcases hname' with heq | ⟨henumeration, -⟩
      · rcases hname with rfl | rfl
        · exact exportedAdapter_ne _ heq.symm
        · exact importedAdapter_ne _ heq.symm
      · exact Declaration.not_isEnumeration_of_isInterface hkind henumeration
  | @holder r q other name hr hq hok hok' hpackage hkind hname hother hregistered hhidden =>
      have hown : q.exportName ∈ r.typeNames :=
        List.mem_cons_of_mem _ (Declaration.mem_companions_iff.2 (.inr ⟨hkind, hname.symm⟩))
      refine ⟨r, hr, q, hq, ?_, ⟨r.exportPackage ctx.erase, q.exportName⟩,
        Request.mem_types_iff.2 ⟨hok, rfl, hown⟩,
        Request.mem_types_iff.2 ⟨hok', hpackage, List.mem_cons_self⟩⟩
      rintro rfl
      exact ne_entriesHolder _ hname.symm

/-- The types that a session declares are different by package and name, unless an adapter or a
holder clashes. -/
theorem declared_types_distinct_iff
    (hctx : Session.start requests extra erase = .ok ctx)
    (hkeys : (requests.map fun r => r.exportKey erase).Nodup) :
    (declaredTypes (Session.exportAll ctx requests)).Nodup ↔ ¬ TypeClash ctx requests := by
  obtain ⟨-, -, -, rfl⟩ := Session.start_eq_ok hctx
  rw [declaredTypes, Session.exportAll, List.flatMap_map, List.nodup_flatMap]
  constructor
  · rintro ⟨-, hdisjoint⟩ hclash
    obtain ⟨r, hr, q, hq, hne, k, hk, hk'⟩ := exists_common_of_clash hclash
    have hsymm : Std.Symm (Function.onFun List.Disjoint fun r : Request =>
        (r.fulfil ctx).file.toList.flatMap File.typeKeys) := ⟨fun _ _ h _ ha hb => h hb ha⟩
    exact hdisjoint.forall hr hq hne hk hk'
  · intro hclash
    refine ⟨fun r _ => r.nodup_types ctx, ?_⟩
    refine (List.pairwise_map.1 hkeys).imp_of_mem ?_
    intro r q hr hq hne
    exact disjoint_of_not_clash hctx hr hq hne hclash

/-- A session can be looked at without naming its context. -/
theorem exists_start_of_any {p : Context → Bool}
    (h : (Session.start requests extra erase).toOption.any p = true) :
    ∃ ctx, Session.start requests extra erase = .ok ctx ∧ p ctx = true :=
  Outcome.exists_ok_of_any h

theorem exists_file_of_any {r : Request} {P : File → Prop} [DecidablePred P]
    (h : ((Session.start requests extra erase).toOption.any fun ctx =>
      (r.fulfil ctx).file.any fun F => P F) = true) :
    ∃ ctx F, Session.start requests extra erase = .ok ctx ∧ (r.fulfil ctx).file = some F ∧ P F := by
  obtain ⟨ctx, hctx, hfile⟩ := exists_start_of_any h
  obtain ⟨F, hF, hholds⟩ := (Option.any_eq_true _ _).1 hfile
  exact ⟨ctx, F, hctx, hF, of_decide_eq_true hholds⟩

end Clashes

section Music

def player : Request :=
  .declaration (.interface { package := "music", simpleName := "Player" }) []

def mode : Request :=
  .declaration
    (.enumeration { package := "music", simpleName := "Mode", entries := ["Shuffle"] }) []

/-- A class without members. -/
def musicClass (name : String) : Declaration :=
  .cls { package := "music", simpleName := name }

/-- An interface, and an enumeration whose holder would go by the name of a class. -/
def modesRequests : List Request :=
  [player, mode, .declaration (musicClass "Modes") []]

theorem declared_types_distinct_iff_of_modes :
    (modesRequests.map fun r => r.exportKey false).Nodup ∧
      ∃ ctx, Session.start modesRequests [] false = .ok ctx ∧
        (declaredTypes (Session.exportAll ctx modesRequests)).Nodup ∧
        ¬ TypeClash ctx modesRequests := by
  have hkeys : (modesRequests.map fun r => r.exportKey false).Nodup := by decide +kernel
  obtain ⟨ctx, hctx, hp⟩ := @exists_start_of_any modesRequests [] false
    (fun ctx => decide (declaredTypes (Session.exportAll ctx modesRequests)).Nodup)
    (by decide +kernel)
  have hnodup := of_decide_eq_true hp
  exact ⟨hkeys, ctx, hctx, hnodup, (declared_types_distinct_iff hctx hkeys).1 hnodup⟩

/-- The wrappers of a session differ and all its requests succeed, but two types that it declares
have the same package and name. -/
def DeclaresTwice (requests : List Request) : Prop :=
  (requests.map fun r => r.exportKey false).Nodup ∧
    ∃ ctx, Session.start requests [] false = .ok ctx ∧
      (∀ r ∈ requests, (r.fulfil ctx).ok = true) ∧
      ¬ (declaredTypes (Session.exportAll ctx requests)).Nodup

/-- An interface, and a class that goes by the name of one of its adapters. -/
def adapterRequests : List Request :=
  [player, .declaration (musicClass "ExportedPlayer") []]

/-- An enumeration, and a second wrapper of a class that goes by the name of its holder. -/
def holderRequests : List Request :=
  [.declaration (musicClass "Switch") [], .generics "Modes" (musicClass "Switch") [] [], mode]

theorem declaresTwice_of_any {requests : List Request}
    (hkeys : (requests.map fun r => r.exportKey false).Nodup)
    (h : (Session.start requests [] false).toOption.any (fun ctx =>
      decide ((∀ r ∈ requests, (r.fulfil ctx).ok = true) ∧
        ¬ (declaredTypes (Session.exportAll ctx requests)).Nodup)) = true) :
    DeclaresTwice requests := by
  obtain ⟨ctx, hctx, hp⟩ := exists_start_of_any h
  exact ⟨hkeys, ctx, hctx, of_decide_eq_true hp⟩

/-- A type is declared twice when an adapter has the name of a wrapper, and when a holder has the
name of a wrapper that the context does not know. -/
theorem exists_types_declared_twice :
    DeclaresTwice adapterRequests ∧ DeclaresTwice holderRequests :=
  ⟨declaresTwice_of_any (by decide +kernel) (by decide +kernel),
    declaresTwice_of_any (by decide +kernel) (by decide +kernel)⟩

end Music

end Facade
