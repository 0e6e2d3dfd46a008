import Facade.Proofs.DeclaredTypes
import Facade.Proofs.UniqueReading
import Facade.Proofs.WrittenNames

/-!
# Type names in sessions without packages

A session may put all its wrappers into the root package.  A type of the root package is written by
its simple name, which is its dotted name too, whoever else is called by it.

**Input.**  A session that has started without packages, and the file of one of its requests.

**Algorithm.**  A type is called by an alias, by the name of the last type with its dotted name if
that one comes first for it, and else by its dotted name.  Two types are written alike when one is
written by its dotted name and the other one is called by it.

**Results.**
* `rawName_eq_iff_confuses`: when two types of a file are written alike.
* `File.confuses_iff`: for names without dots, one of them is of the root package.
* `erased_names_told_apart`: the two in a session, where a file has one alias and declares the types
  of its request; and no two texts are the same if no two names are.
-/

namespace Facade

open Wrapper

namespace Dictionary

variable {κ α : Type} [DecidableEq κ]

theorem get?_singleton_eq_some_iff {key k : κ} {value v : α} :
    get? [(key, value)] k = some v ↔ k = key ∧ v = value := by
  by_cases h : key = k
  · simp [get?, h, eq_comm]
  · simp [get?, h, Ne.symm h]

theorem has_singleton_eq_false_iff {key k : κ} {value : α} :
    has [(key, value)] k = false ↔ k ≠ key := by
  simp [has, eq_comm]

end Dictionary

namespace Source

/-- The short name by which a file calls a type: its alias, or the name of the last type with its
dotted name if that one comes first for it. -/
inductive File.Calls (f : File) (k : Key) : String → Prop
  | aliased {short : String}
      (h : f.aliases.get? k.qualified = some short) :
      Calls f k short
  | foremost {m : Key}
      (halias : f.aliases.has k.qualified = false)
      (hpackaged : k.IsPackaged)
      (hm : m ∈ Namer.unaliased f)
      (hqualified : m.qualified = k.qualified)
      (hlast : ∀ l ∈ Namer.unaliased f, l.qualified = k.qualified → Key.le l m = true)
      (hfirst : f.ComesFirst m) :
      Calls f k m.name

/-- A type is written by its dotted name, and another one is called by it. -/
structure File.Confuses (f : File) (k l : Key) : Prop where
  uncalled : ∀ short, ¬ f.Calls k short
  called : f.Calls l k.qualified

section Naming

open Namer

variable {f : File} {k l : Key} {short short' : String}

/-- At most one type comes first for a name. -/
theorem File.ComesFirst.eq
    (hk : k ∈ Namer.unaliased f)
    (hl : l ∈ Namer.unaliased f)
    (h : f.ComesFirst k)
    (h' : f.ComesFirst l)
    (hname : k.name = l.name) :
    k = l := by
  by_cases hdeclared : f.Declares k.name
  · have hpackage : k.package = l.package :=
      (h.declared hdeclared).trans (h'.declared (hname ▸ hdeclared)).symm
    obtain ⟨package, name⟩ := k
    obtain ⟨package', name'⟩ := l
    rw [Key.mk.injEq]
    exact ⟨hpackage, hname⟩
  · exact Key.le_antisymm (h.least hdeclared l hl hname.symm)
      (h'.least (hname ▸ hdeclared) k hk hname)

/-- A type is called by at most one name. -/
theorem File.Calls.unique
    (h : f.Calls k short)
    (h' : f.Calls k short') :
    short = short' := by
  have hnone : ∀ {short}, f.aliases.has k.qualified = false →
      f.aliases.get? k.qualified ≠ some short := by
    intro short hhas hget
    rw [Dictionary.get?_eq_none_iff.2 hhas] at hget
    exact absurd hget (by simp)
  cases h with
  | aliased hget =>
      cases h' with
      | aliased hget' => exact Option.some.inj (hget.symm.trans hget')
      | foremost hhas => exact absurd hget (hnone hhas)
  | foremost hhas hpackaged hm hqualified hlast hfirst =>
      cases h' with
      | aliased hget => exact absurd hget (hnone hhas)
      | foremost hhas' hpackaged' hm' hqualified' hlast' hfirst' =>
          rw [Key.le_antisymm (hlast' _ hm hqualified) (hlast _ hm' hqualified')]

/-- What two types are both called is one type. -/
theorem File.Calls.qualified_eq
    (hdistinct : f.HasDistinctAliases)
    (h : f.Calls k short)
    (h' : f.Calls l short) :
    k.qualified = l.qualified := by
  generalize hsame : short = short' at h'
  cases h with
  | aliased hget =>
      have hmem := Dictionary.mem_of_get? hget
      cases h' with
      | aliased hget' =>
          have hmem' := Dictionary.mem_of_get? hget'
          rw [← hsame] at hmem'
          exact congrArg Prod.fst (List.inj_on_of_nodup_map hdistinct hmem hmem' rfl)
      | foremost _ _ _ _ _ hfirst => exact absurd hsame (hfirst.unaliased _ hmem)
  | foremost _ _ hm hqualified _ hfirst =>
      cases h' with
      | aliased hget => exact absurd hsame.symm (hfirst.unaliased _ (Dictionary.mem_of_get? hget))
      | foremost _ _ hm' hqualified' _ hfirst' =>
          rw [← hqualified, ← hqualified', hfirst.eq hm hm' hfirst' hsame]

/-- A type is written by what it is called, or by its dotted name if it is not called anything. -/
theorem calls_rawName_or
    (hk : k.IsPackaged → k ∈ keys f) :
    f.Calls k ((ofFile f).rawName k) ∨
      (∀ short, ¬ f.Calls k short) ∧ (ofFile f).rawName k = k.qualified := by
  cases hget : f.aliases.get? k.qualified with
  | some short =>
      have hname : (ofFile f).rawName k = short := by
        refine rawName_of_aliased ?_
        rw [aliases_ofFile]
        exact hget
      rw [hname]
      exact .inl (.aliased hget)
  | none =>
      have halias := Dictionary.get?_eq_none_iff.1 hget
      by_cases hpackaged : k.IsPackaged
      · have hmem : k ∈ unaliased f := mem_unaliased.2 ⟨hk hpackaged, halias⟩
        obtain ⟨m, hm, hqualified, hlast, ⟨hfirst, hname⟩ | ⟨hlater, hname⟩⟩ := exists_rawName hmem
        · rw [hname]
          exact .inl (.foremost halias hpackaged hm hqualified hlast hfirst)
        · refine .inr ⟨fun short hcalls => ?_, hname⟩
          cases hcalls with
          | aliased hget' => exact absurd (hget.symm.trans hget') (by simp)
          | foremost _ _ hm' hqualified' hlast' hfirst =>
              rw [Key.le_antisymm (hlast' _ hm hqualified) (hlast _ hm' hqualified')] at hlater
              exact hlater hfirst
      · refine .inr ⟨fun short hcalls => ?_, rawName_of_unpackaged (not_not.1 hpackaged) halias⟩
        cases hcalls with
        | aliased hget' => exact absurd (hget.symm.trans hget') (by simp)
        | foremost _ hpackaged' => exact hpackaged hpackaged'

/-- Two types are written alike exactly if one is confused with the other. -/
theorem rawName_eq_iff_confuses
    (hdistinct : f.HasDistinctAliases)
    (hk : k.IsPackaged → k ∈ keys f)
    (hl : l.IsPackaged → l ∈ keys f)
    (hne : k.qualified ≠ l.qualified) :
    (ofFile f).rawName k = (ofFile f).rawName l ↔ f.Confuses k l ∨ f.Confuses l k := by
  rcases calls_rawName_or hk with hkcalls | ⟨hkuncalled, hkname⟩
  · rcases calls_rawName_or hl with hlcalls | ⟨hluncalled, hlname⟩
    · refine iff_of_false (fun hsame => ?_) ?_
      · rw [← hsame] at hlcalls
        exact hne (hkcalls.qualified_eq hdistinct hlcalls)
      · rintro (h | h)
        · exact h.uncalled _ hkcalls
        · exact h.uncalled _ hlcalls
    · rw [hlname]
      refine ⟨fun hsame => .inr ⟨hluncalled, hsame ▸ hkcalls⟩, ?_⟩
      rintro (h | h)
      · exact absurd hkcalls (h.uncalled _)
      · exact hkcalls.unique h.called
  · rw [hkname]
    rcases calls_rawName_or hl with hlcalls | ⟨hluncalled, hlname⟩
    · refine ⟨fun hsame => .inl ⟨hkuncalled, hsame ▸ hlcalls⟩, ?_⟩
      rintro (h | h)
      · exact h.called.unique hlcalls
      · exact absurd hlcalls (h.uncalled _)
    · rw [hlname]
      refine iff_of_false hne ?_
      rintro (h | h)
      · exact hluncalled _ h.called
      · exact hkuncalled _ h.called

/-- Types of packages that have the same dotted name are written alike. -/
theorem rawName_congr
    (hk : k.IsPackaged)
    (hl : l.IsPackaged)
    (h : k.qualified = l.qualified) :
    (ofFile f).rawName k = (ofFile f).rawName l := by
  have hk' : ¬ k.package.isEmpty = true := by simpa [Key.IsPackaged] using hk
  have hl' : ¬ l.package.isEmpty = true := by simpa [Key.IsPackaged] using hl
  rw [rawName, rawName, h, if_neg hk', if_neg hl']

/-- Without dots in names, only types of the root package are confused with others. -/
theorem File.confuses_iff
    (hplain : f.HasPlainNames)
    (haliases : ∀ entry ∈ f.aliases, '.' ∉ entry.2.toList)
    (hl : l.IsPackaged → l ∈ keys f) :
    f.Confuses k l ↔
      k.package = "" ∧ f.aliases.has k.qualified = false ∧
        (f.aliases.get? l.qualified = some k.name ∨
          l ∈ unaliased f ∧ l.name = k.name ∧ f.ComesFirst l) := by
  constructor
  · intro h
    have hroot : k.package = "" := by
      by_contra hpackaged
      have hdot : '.' ∈ k.qualified.toList := by simp [Key.toList_qualified hpackaged]
      generalize hshort : k.qualified = short at hdot
      cases hshort ▸ h.called with
      | aliased hget => exact haliases _ (Dictionary.mem_of_get? hget) hdot
      | foremost _ _ hm => exact (mem_keys_well_formed hplain (mem_unaliased.1 hm).1).2 hdot
    refine ⟨hroot, ?_, ?_⟩
    · rw [← Dictionary.get?_eq_none_iff]
      by_contra hsome
      obtain ⟨short, hget⟩ := Option.ne_none_iff_exists'.1 hsome
      exact h.uncalled short (.aliased hget)
    · have hcalled := h.called
      rw [Key.qualified_of_root hroot] at hcalled
      generalize hshort : k.name = short at hcalled ⊢
      cases hcalled with
      | aliased hget => exact .inl hget
      | @foremost m halias hpackaged hm hqualified _ hfirst =>
          obtain rfl : m = l := Key.qualified_injective
            (mem_keys_well_formed hplain (mem_unaliased.1 hm).1)
            (mem_keys_well_formed hplain (hl hpackaged)) hqualified
          exact .inr ⟨hm, rfl, hfirst⟩
  · rintro ⟨hroot, halias, hcalled⟩
    refine ⟨fun short hcalls => ?_, ?_⟩
    · cases hcalls with
      | aliased hget =>
          rw [Dictionary.get?_eq_none_iff.2 halias] at hget
          exact absurd hget (by simp)
      | foremost _ hpackaged => exact hpackaged hroot
    · rw [Key.qualified_of_root hroot]
      rcases hcalled with hget | ⟨hmem, hname, hfirst⟩
      · exact .aliased hget
      · rw [← hname]
        obtain ⟨hkeys, hunaliased⟩ := mem_unaliased.1 hmem
        refine .foremost hunaliased (isPackaged_of_mem_unaliased hmem) hmem rfl ?_ hfirst
        intro m hm hqualified
        rw [Key.qualified_injective (mem_keys_well_formed hplain (mem_unaliased.1 hm).1)
          (mem_keys_well_formed hplain hkeys) hqualified]
        exact Key.le_iff.2 le_rfl

end Naming

section Texts

open Namer Text

variable {f : File}

/-- Types, named packages and aliases are called by words, and function types by their number of
parameters. -/
structure File.IsWorded (f : File) : Prop where
  names : ∀ s ∈ f.references, IsWord s.name
  packages : ∀ s ∈ f.references, s.package ≠ "" → ∀ segment ∈ splitAt '.' s.package, IsWord segment
  aliases : ∀ entry ∈ f.aliases, IsWord entry.2
  functions : ∀ s ∈ f.references, s.isFunction = true →
    s.name = "Function" ++ toString (s.args.length - 1)

theorem mem_keys_of_reference {s : Shape}
    (hs : s ∈ f.references)
    (hfunction : s.isFunction = false)
    (hpackaged : s.key.IsPackaged) :
    s.key ∈ keys f :=
  mem_keys.2 ⟨s, hs, hfunction, rfl, hpackaged⟩

theorem File.IsWorded.qualified_dotted {s : Shape}
    (h : f.IsWorded)
    (hs : s ∈ f.references) :
    s.qualified ≠ "" ∧ ∀ c ∈ s.qualified.toList, isDotted c = true := by
  by_cases hroot : s.package = ""
  · rw [Shape.qualified, Key.qualified_of_root hroot]
    exact ⟨(h.names s hs).1, (h.names s hs).dotted⟩
  · have hlist : s.qualified.toList = _ := Key.toList_qualified (k := s.key) hroot
    refine ⟨fun hempty => ?_, fun c hc => ?_⟩
    · rw [hempty] at hlist
      simp at hlist
    · rw [hlist, List.mem_append, List.mem_cons] at hc
      rcases hc with hc | rfl | hc
      · exact dotted_of_segments (h.packages s hs hroot) c hc
      · decide
      · exact (h.names s hs).dotted c hc

/-- In a file of words, every type is written as words joined by dots. -/
theorem File.IsWorded.rawName_dotted {s : Shape}
    (h : f.IsWorded)
    (hs : s ∈ f.references)
    (hfunction : s.isFunction = false) :
    (ofFile f).rawName s.key ≠ "" ∧
      ∀ c ∈ ((ofFile f).rawName s.key).toList, isDotted c = true := by
  have hword : ∀ {short}, f.Calls s.key short → IsWord short := by
    intro short hcalls
    cases hcalls with
    | aliased hget => exact h.aliases _ (Dictionary.mem_of_get? hget)
    | foremost _ _ hm =>
        obtain ⟨t, ht, -, rfl, -⟩ := mem_keys.1 (mem_unaliased.1 hm).1
        exact h.names t ht
  rcases calls_rawName_or (mem_keys_of_reference hs hfunction) with hcalls | ⟨-, hname⟩
  · exact ⟨(hword hcalls).1, (hword hcalls).dotted⟩
  · rw [hname]
    exact h.qualified_dotted hs

/-- If no two types are confused, no two texts are the same. -/
theorem File.IsWorded.injOn
    (h : f.IsWorded)
    (hdistinct : f.HasDistinctAliases)
    (hapart : ∀ s ∈ f.references, ∀ t ∈ f.references, s.isFunction = false → t.isFunction = false →
      ¬ f.Confuses s.key t.key) :
    Set.InjOn (ofFile f).name {s | s ∈ f.references} := by
  have hlegible : Namer.Legible (ofFile f) f.Mentions := by
    refine File.legible_mentions (fun s hs => h.rawName_dotted hs) ?_ h.functions
    intro s hs t ht hfunction hfunction' hname
    by_contra hne
    have hqualified : s.key.qualified ≠ t.key.qualified := fun heq =>
      hne (Key.qualified_injective_of_plain (h.names s hs).plain (h.names t ht).plain heq)
    rcases (rawName_eq_iff_confuses hdistinct (mem_keys_of_reference hs hfunction)
      (mem_keys_of_reference ht hfunction') hqualified).1 hname with hconfuses | hconfuses
    · exact hapart s hs t ht hfunction hfunction' hconfuses
    · exact hapart t ht s hs hfunction' hfunction hconfuses
  intro s hs t ht htext
  have hclosed : Closed [] := by simp [Closed]
  have hread := hlegible.readable ⟨s, hs, rfl, rfl⟩
  exact (hread ⟨t, ht, rfl, rfl⟩ hclosed hclosed (by rw [htext])).1

end Texts

end Source

namespace Request

/-- The type that a request asks to wrap, by package and name. -/
def nativeKey (r : Request) : Key :=
  r.decl.header.shape.key

end Request

section Sessions

open Source

variable {ctx : Context} {r : Request} {F : File}

theorem header_of_subject {d : Declaration}
    (h : r.subject = .ok d) :
    d.header.shape = r.decl.header.shape := by
  cases r with
  | declaration d' sources =>
      obtain rfl : d' = d := Except.ok.inj h
      rfl
  | generics name d' args sources =>
      rw [Request.subject, Outcome.mapError_eq_ok_iff] at h
      cases d' with
      | cls c =>
          obtain ⟨b, -, h⟩ := Outcome.bind_eq_ok_iff.1 h
          obtain rfl := Except.ok.inj h
          rfl
      | interface i =>
          obtain ⟨b, -, h⟩ := Outcome.bind_eq_ok_iff.1 h
          obtain rfl := Except.ok.inj h
          rfl
      | _ => simp [Declaration.instantiate] at h

/-- The file of a request is of its package and has one alias, for the native type. -/
theorem Request.heading_of_build
    (h : r.build ctx = .ok F) :
    F.package = r.exportPackage ctx.erase ∧
      F.aliases = [(r.nativeKey.qualified, Name.nativeAlias r.nativeKey.name)] := by
  obtain ⟨d, hd, hbuild⟩ := Outcome.bind_eq_ok_iff.1 h
  obtain ⟨hpackage, haliases⟩ := heading_of_ofDeclaration hbuild
  have hshape := header_of_subject hd
  have hheader : d.header.package = r.decl.header.package := congrArg Shape.package hshape
  have hname : d.header.simpleName = r.decl.header.simpleName := congrArg Shape.name hshape
  rw [hpackage, haliases, hheader, hname, hshape]
  exact ⟨rfl, rfl⟩

/-- The file of a request declares the types of the request. -/
theorem Request.declares_iff_of_build
    (h : r.build ctx = .ok F) (name : String) :
    F.Declares name ↔ name ∈ r.typeNames := by
  have hnames : F.types.map TypeDef.name = r.typeNames := by
    simpa [File.typeKeys, Function.comp_def] using
      congrArg (List.map Key.name) (Request.typeKeys_of_build h)
  rw [← hnames, List.mem_map]
  rfl

/-- The conversions of a wrapper mention the native type. -/
theorem Request.exists_native_reference
    (h : r.build ctx = .ok F) :
    ∃ s ∈ F.references, s.key = r.nativeKey := by
  obtain ⟨d, hd, hbuild⟩ := Outcome.bind_eq_ok_iff.1 h
  obtain ⟨-, native, name, hnative, hdeclares⟩ := ofDeclaration_declares hbuild
  obtain ⟨g, hg, -, hresult⟩ := hdeclares.importer
  have hkey : native.key = d.header.shape.key := by
    cases d with
    | other kind header => simp [Session.nativeType] at hnative
    | _ =>
        obtain ⟨rfl, -⟩ := Prod.mk.inj (Except.ok.inj hnative)
        rfl
  refine ⟨native, ?_, by rw [hkey, header_of_subject hd]; rfl⟩
  obtain ⟨m, hm, hfunction⟩ := List.mem_filterMap.1 (List.mem_of_find?_eq_some hg)
  refine List.mem_flatMap.2 ⟨m, hm, ?_⟩
  cases m with
  | function g' =>
      obtain rfl := Option.some.inj hfunction
      have hparts : native ∈ optionalParts (some native) := by
        simp [optionalParts, Shape.partsAll, Shape.self_mem_parts]
      refine List.mem_append_left _ (List.mem_append_right _ ?_)
      rwa [hresult]
  | _ => simp at hfunction

/-- What the types of a file are called when wrappers have no package. -/
structure ErasedNames (r : Request) (F : File) : Prop where
  root : F.package = ""
  aliases : F.aliases = [(r.nativeKey.qualified, Name.nativeAlias r.nativeKey.name)]
  declares : ∀ name, F.Declares name ↔ name ∈ r.typeNames
  /-- Types with different dotted names are written alike exactly if one is confused with the
  other. -/
  alike : ∀ s ∈ F.references, ∀ t ∈ F.references, s.isFunction = false → t.isFunction = false →
    s.qualified ≠ t.qualified →
    ((Namer.ofFile F).rawName s.key = (Namer.ofFile F).rawName t.key ↔
      F.Confuses s.key t.key ∨ F.Confuses t.key s.key)
  /-- Types of packages with the same dotted name are always written alike. -/
  same : ∀ s t : Shape, s.package ≠ "" → t.package ≠ "" → s.qualified = t.qualified →
    (Namer.ofFile F).rawName s.key = (Namer.ofFile F).rawName t.key
  /-- Without dots in names, the one is a type of the root package, and the other one is the native
  type or comes first for its name. -/
  plain : F.HasPlainNames → ∀ s : Shape, ∀ t ∈ F.references, t.isFunction = false →
    (F.Confuses s.key t.key ↔
      s.package = "" ∧ s.qualified ≠ r.nativeKey.qualified ∧
        (t.qualified = r.nativeKey.qualified ∧ s.name = Name.nativeAlias r.nativeKey.name ∨
          t.package ≠ "" ∧ t.qualified ≠ r.nativeKey.qualified ∧ t.name = s.name ∧
            F.ComesFirst t.key))
  /-- If all names are words and no two types are confused, no two texts are the same. -/
  apart : F.IsWorded →
    (∀ s ∈ F.references, ∀ t ∈ F.references, s.isFunction = false → t.isFunction = false →
      ¬ F.Confuses s.key t.key) →
    Set.InjOn (Namer.ofFile F).name {s | s ∈ F.references}

/-- In a session that erases packages, two types of a file are written alike only in the ways that
the erased packages allow. -/
theorem erased_names_told_apart {requests : List Request} {extra : List Shape}
    (hstart : Session.start requests extra true = .ok ctx)
    (hF : (r.fulfil ctx).file = some F) :
    ErasedNames r F := by
  have hbuild := Request.build_of_fulfil hF
  obtain ⟨hpackage, haliases⟩ := Request.heading_of_build hbuild
  obtain ⟨known, -, -, herase⟩ := Session.start_eq_ok hstart
  have hdistinct : F.HasDistinctAliases := by simp [File.HasDistinctAliases, haliases]
  refine
    { root := by rw [hpackage, herase]; rfl
      aliases := haliases
      declares := Request.declares_iff_of_build hbuild
      alike := fun s hs t ht hfunction hfunction' hne =>
        rawName_eq_iff_confuses hdistinct (mem_keys_of_reference hs hfunction)
          (mem_keys_of_reference ht hfunction') hne
      same := fun s t hs ht h => rawName_congr hs ht h
      plain := fun hplain s t ht hfunction => ?_
      apart := fun hworded hapart => hworded.injOn hdistinct hapart }
  have hnative : ∀ entry ∈ F.aliases, '.' ∉ entry.2.toList := by
    obtain ⟨native, hmem, hkey⟩ := Request.exists_native_reference hbuild
    have hname : '.' ∉ r.nativeKey.name.toList := hkey ▸ hplain native hmem
    rw [haliases, List.forall_mem_singleton]
    simpa [Name.nativeAlias] using hname
  have hunaliased : t.key ∈ Namer.unaliased F ↔
      t.package ≠ "" ∧ t.qualified ≠ r.nativeKey.qualified := by
    rw [Namer.mem_unaliased, haliases, Dictionary.has_singleton_eq_false_iff]
    refine and_congr_left fun _ => ⟨fun hkey => ?_, mem_keys_of_reference ht hfunction⟩
    exact (Namer.mem_keys_well_formed hplain hkey).1
  rw [File.confuses_iff hplain hnative (mem_keys_of_reference ht hfunction), hunaliased, haliases,
    Dictionary.get?_singleton_eq_some_iff, Dictionary.has_singleton_eq_false_iff, and_assoc]
  rfl

end Sessions

section Parcels

open Source

/-- A class of boxes. -/
def packing : Request :=
  .declaration (.cls { package := "a", simpleName := "Box" }) []

/-- A class that refers to boxes of two packages. -/
def parcel : Request :=
  .declaration
    (.cls { package := "app", simpleName := "Parcel",
            properties :=
              [{ name := "inner", type := { name := "Box", package := "a" } },
               { name := "outer", type := { name := "Box", package := "b" } }] })
    []

theorem file_fulfil_parcel :
    ∃ ctx F, Session.start [packing, parcel] [] true = .ok ctx ∧
      (parcel.fulfil ctx).file = some F ∧ F.HasPlainNames ∧ F.HasDistinctAliases ∧
      F.aliases = [("app.Parcel", "CommonParcel")] ∧ F.types.map TypeDef.name = ["Parcel"] ∧
      { name := "Box", package := "" } ∈ F.references ∧
      { name := "Box", package := "b" } ∈ F.references ∧
      ∀ s ∈ F.references, s.name = "Box" → s.package = "" ∨ s.package = "b" :=
  exists_file_of_any (by decide +kernel)

theorem erased_names_told_apart_of_parcel :
    ∃ ctx F, Session.start [packing, parcel] [] true = .ok ctx ∧
      (parcel.fulfil ctx).file = some F ∧ ErasedNames parcel F := by
  obtain ⟨ctx, F, hctx, hF, -⟩ := file_fulfil_parcel
  exact ⟨ctx, F, hctx, hF, erased_names_told_apart hctx hF⟩

/-- The wrapper of the one box and the other box are written alike. -/
theorem exists_types_written_alike :
    ∃ requests ctx, Session.start requests [] true = .ok ctx ∧
      ∃ r ∈ requests, ∃ F, (r.fulfil ctx).file = some F ∧
        ∃ s ∈ F.references, ∃ t ∈ F.references, s.key ≠ t.key ∧
          (Namer.ofFile F).name s = (Namer.ofFile F).name t := by
  obtain ⟨ctx, F, hctx, hF, hplain, hdistinct, haliases, htypes, hs, ht, hboxes⟩ :=
    file_fulfil_parcel
  refine ⟨_, ctx, hctx, parcel, by simp, F, hF, _, hs, _, ht, by decide, ?_⟩
  have hkey : (Key.mk "b" "Box") ∈ Namer.unaliased F :=
    Namer.mem_unaliased_of_reference ht (Mapping.isFunction_of_args_nil rfl) (by decide)
      (by rw [haliases]; decide)
  have hfirst : F.ComesFirst ⟨"b", "Box"⟩ := by
    refine ⟨by simp [haliases], fun ⟨t, ht, hname⟩ => ?_, fun _ l hl hname => ?_⟩
    · have hmem := List.mem_map_of_mem (f := TypeDef.name) ht
      rw [htypes, hname] at hmem
      exact absurd hmem (by decide)
    · obtain ⟨u, hu, -, rfl, hpackaged⟩ := Namer.mem_keys.1 (Namer.mem_unaliased.1 hl).1
      have hpackage : u.package = "b" := (hboxes u hu hname).resolve_left hpackaged
      have heq : u.key = ⟨"b", "Box"⟩ := by rw [Shape.key, hpackage, show u.name = "Box" from hname]
      rw [heq]
      exact Key.le_iff.2 le_rfl
  have hmem : Key.mk "b" "Box" ∈ Namer.keys F := (Namer.mem_unaliased.1 hkey).1
  have hconfuses : F.Confuses ⟨"", "Box"⟩ ⟨"b", "Box"⟩ := by
    rw [File.confuses_iff hplain (by rw [haliases]; decide) fun _ => hmem, haliases]
    exact ⟨rfl, by decide, .inr ⟨hkey, rfl, hfirst⟩⟩
  have hroot : ¬ (Key.mk "" "Box").IsPackaged := by decide
  have hsame : (Namer.ofFile F).rawName ⟨"", "Box"⟩ = (Namer.ofFile F).rawName ⟨"b", "Box"⟩ :=
    (rawName_eq_iff_confuses hdistinct (absurd · hroot) (fun _ => hmem) (by decide)).2
      (.inl hconfuses)
  rw [Namer.name_of_not_function (Mapping.isFunction_of_args_nil rfl),
    Namer.name_of_not_function (Mapping.isFunction_of_args_nil rfl)]
  exact congrArg (fun text => text ++ Shape.bracketed [] ++ Shape.mark false) hsame

end Parcels

end Facade
