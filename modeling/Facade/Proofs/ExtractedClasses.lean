import Facade.Discovery.Classpath
import Facade.Proofs.Outcome
import Facade.Proofs.WrittenNames

/-!
# What the entries of a class path hold

Every input has an entry of its own in the class path, but two inputs from different directories may
be extracted to one file.  The input that comes last then decides what both entries hold.

**Input.**  A tree of files, the directory for what is extracted, and any list of inputs.

**Algorithm.**  The inputs are gone through in order.  One that holds the archive of its classes
puts it into the directory under a name that is made from its own last part alone.  The directory
has to be there, and no other directory may have that name in it.

**Results.**
* `Store.exists_write_iff`: when a file can be written.
* `add_of_aar` and `add_of_not_aar`: what one input adds.
* `ofInputs_eq_ok_iff`: the class path of a list of inputs, and when there is one.
* `fileAt?_entryOf`: the entry of an input leads to what was extracted under its name.
* `entries_hold_classes_iff`: every entry holds the classes of its input exactly if inputs that are
  extracted under one name hold the same classes.
-/

namespace Facade

namespace Dictionary

variable {κ α : Type} [DecidableEq κ]

/-- Of the entries with one key the last one counts. -/
theorem get?_ofList_of_last {earlier later : List (κ × α)} {key : κ} {value : α}
    (hlast : ∀ entry ∈ later, entry.1 ≠ key) :
    (ofList (earlier ++ (key, value) :: later)).get? key = some value := by
  induction later using List.reverseRecOn with
  | nil =>
      rw [ofList, List.foldl_append, List.foldl_cons, List.foldl_nil]
      exact get?_put_self _ _ _
  | append_singleton front last ih =>
      obtain ⟨hfront, hne⟩ := List.forall_mem_append.1 hlast
      have hkey : key ≠ last.1 := (hne last List.mem_cons_self).symm
      rw [ofList, ← List.cons_append, ← List.append_assoc, List.foldl_append, List.foldl_cons,
        List.foldl_nil, get?_put_of_ne _ _ hkey]
      exact ih hfront

theorem put_of_not_mem {d : Dictionary κ α} {key : κ} {value : α}
    (h : key ∉ d.keys) :
    d.put key value = d ++ [(key, value)] := by
  induction d with
  | nil => rfl
  | cons entry rest ih =>
      obtain ⟨hne, hrest⟩ := List.ne_and_not_mem_of_not_mem_cons h
      rw [put, if_neg (Ne.symm hne), ih hrest, List.cons_append]

/-- A list of entries is its own dictionary exactly if no key comes twice. -/
theorem ofList_eq_self_iff {entries : List (κ × α)} :
    ofList entries = entries ↔ (entries.map Prod.fst).Nodup := by
  refine ⟨fun h => h ▸ nodup_keys_ofList entries, fun h => ?_⟩
  induction entries using List.reverseRecOn with
  | nil => rfl
  | append_singleton front last ih =>
      rw [List.map_append, List.nodup_append] at h
      obtain ⟨hfront, -, hlast⟩ := h
      have hnew : last.1 ∉ Dictionary.keys front :=
        fun hmem => hlast last.1 hmem last.1 (by simp) rfl
      rw [ofList, List.foldl_append, List.foldl_cons, List.foldl_nil, ← ofList, ih hfront,
        put_of_not_mem hnew]

end Dictionary

namespace Path

/-- What stands before the last part of a path does not depend on it. -/
theorem exists_text_concat (parts : List String) :
    ∃ front : String, ∀ part, "/".intercalate (parts ++ [part]) = front ++ part := by
  induction parts with
  | nil => exact ⟨"", fun part => by simp⟩
  | cons first rest ih =>
      obtain ⟨front, hfront⟩ := ih
      refine ⟨first ++ "/" ++ front, fun part => ?_⟩
      rw [String.append_assoc, ← hfront part, List.cons_append,
        String.intercalate_cons_of_ne_nil (by simp)]

/-- Different names in a directory have different paths. -/
theorem text_join_injective {directory : Path} {part other : String}
    (h : (directory.join ⟨.current, [part]⟩).text = (directory.join ⟨.current, [other]⟩).text) :
    part = other := by
  obtain ⟨front, hfront⟩ := exists_text_concat directory.parts
  have htext : ∀ part, (directory.join ⟨.current, [part]⟩).text =
      directory.anchor.text ++ (front ++ part) := by
    intro part
    rw [join_relative, text, if_neg (by simp), bareText, hfront]
  rw [htext, htext] at h
  simpa using h

end Path

namespace Store

variable {s : Store} {path : Path}

/-- A file can be written at a path: there are all directories on the way, and there is no directory
at its end. -/
def Accepts (s : Store) (path : Path) : Prop :=
  ∃ place, s.locate path = .ok place ∧ s.node? place ≠ some .dir

/-- A file can be written exactly where the store accepts one. -/
theorem exists_write_iff {content : Content} :
    (∃ written, s.write path content = .ok written) ↔ s.Accepts path := by
  rw [write, Accepts]
  cases s.locate path with
  | error fault => simp
  | ok place =>
      dsimp only
      split
      · next hdir => simp [hdir]
      · next hfree => simpa using hfree

end Store

namespace Classpath

variable {s : Store} {directory : Path} {inputs : List Path} {cp : Classpath}

/-- The archive of classes that an input holds. -/
def classesOf (s : Store) (input : Path) : Except ArchiveError Content := do
  let entries ← s.readArchive input
  entries.read classesEntry

/-- The entry of an input. -/
def entryOf (directory input : Path) : String :=
  if input.isAar then (target directory input).text else input.text

/-- The classes of an input can be read, and a file of the name that they are extracted under can be
written in the directory. -/
def Extractable (s : Store) (directory input : Path) : Prop :=
  (∃ classes, classesOf s input = .ok classes) ∧ s.Accepts (target directory input)

/-- What the inputs put into the directory, in order. -/
def extractions (s : Store) (inputs : List Path) : List (String × Content) :=
  inputs.filterMap fun input =>
    if input.isAar then
      (classesOf s input).toOption.map fun classes => (extractedName input, classes)
    else none

/-- The file that the text of a path in the directory leads to. -/
def fileAt? (cp : Classpath) (directory : Path) (entry : String) : Option Content :=
  (cp.extracted.find? fun file => (directory.join ⟨.current, [file.1]⟩).text = entry).map Prod.snd

/-- The entry of an input holds the classes of that input. -/
def HoldsClasses (s : Store) (directory : Path) (cp : Classpath) (input : Path) : Prop :=
  ∃ classes, classesOf s input = .ok classes ∧
    cp.fileAt? directory (entryOf directory input) = some classes

section Runs

variable {known next : Classpath} {input : Path} {rest : List Path} {classes : Content}

/-- A library adds the entry of its extracted classes, and the file they are extracted to. -/
theorem add_of_aar
    (haar : input.isAar) :
    add s directory known input = .ok next ↔
      ∃ classes, classesOf s input = .ok classes ∧ s.Accepts (target directory input) ∧
        next = ⟨known.entries ++ [entryOf directory input],
          known.extracted.put (extractedName input) classes⟩ := by
  rw [add, if_pos haar, ← bind_assoc, ← classesOf, Outcome.bind_eq_ok_iff, entryOf, if_pos haar]
  refine exists_congr fun classes => and_congr_right fun _ => ?_
  rw [Outcome.bind_eq_ok_iff, ← @Store.exists_write_iff s _ classes, exists_and_right.symm]
  refine exists_congr fun written => ?_
  rw [Outcome.mapError_eq_ok_iff, Except.ok.injEq, eq_comm (a := next)]

theorem add_of_not_aar
    (haar : ¬ input.isAar) :
    add s directory known input = .ok next ↔
      next = ⟨known.entries ++ [entryOf directory input], known.extracted⟩ := by
  rw [add, if_neg haar, entryOf, if_neg haar, Except.ok.injEq]
  exact eq_comm

theorem extractions_cons_of_ok
    (haar : input.isAar)
    (hclasses : classesOf s input = .ok classes) :
    extractions s (input :: rest) = (extractedName input, classes) :: extractions s rest := by
  rw [extractions, List.filterMap_cons_some]
  · rfl
  · rw [if_pos haar, hclasses]
    rfl

theorem extractions_cons_of_not_aar
    (haar : ¬ input.isAar) :
    extractions s (input :: rest) = extractions s rest := by
  rw [extractions, List.filterMap_cons_none]
  · rfl
  · rw [if_neg haar]

theorem extractions_append (s : Store) (earlier later : List Path) :
    extractions s (earlier ++ later) = extractions s earlier ++ extractions s later := by
  rw [extractions, List.filterMap_append, extractions, extractions]

/-- Every input adds its entry and, in its turn, what is extracted from it. -/
theorem foldlM_add_eq_ok_iff :
    inputs.foldlM (add s directory) known = .ok cp ↔
      (∀ input ∈ inputs, input.isAar → Extractable s directory input) ∧
        cp = ⟨known.entries ++ inputs.map (entryOf directory),
          (extractions s inputs).foldl (fun d file => d.put file.1 file.2) known.extracted⟩ := by
  induction inputs generalizing known with
  | nil =>
      have hnil : (pure known : Except ArchiveError Classpath) = .ok known := rfl
      simp only [List.foldlM_nil, hnil, Except.ok.injEq, extractions, List.map_nil, List.append_nil,
        List.filterMap_nil, List.foldl_nil, List.not_mem_nil, false_implies, implies_true, true_and]
      exact eq_comm
  | cons input rest ih =>
      rw [List.foldlM_cons, Outcome.bind_eq_ok_iff, List.forall_mem_cons, List.map_cons]
      by_cases haar : input.isAar
      · simp only [add_of_aar haar, ih]
        constructor
        · rintro ⟨next, ⟨classes, hclasses, haccepts, rfl⟩, hrest, rfl⟩
          refine ⟨⟨fun _ => ⟨⟨classes, hclasses⟩, haccepts⟩, hrest⟩, ?_⟩
          rw [extractions_cons_of_ok haar hclasses]
          simp
        · rintro ⟨⟨hinput, hrest⟩, rfl⟩
          obtain ⟨⟨classes, hclasses⟩, haccepts⟩ := hinput haar
          refine ⟨_, ⟨classes, hclasses, haccepts, rfl⟩, hrest, ?_⟩
          rw [extractions_cons_of_ok haar hclasses]
          simp
      · simp only [add_of_not_aar haar, ih, exists_eq_left, extractions_cons_of_not_aar haar]
        simp [haar]

/-- There is a class path exactly if all libraries can be extracted; it has an entry for every
input. -/
theorem ofInputs_eq_ok_iff :
    ofInputs s directory inputs = .ok cp ↔
      (∀ input ∈ inputs, input.isAar → Extractable s directory input) ∧
        cp = ⟨inputs.map (entryOf directory), Dictionary.ofList (extractions s inputs)⟩ := by
  rw [ofInputs, foldlM_add_eq_ok_iff]
  simp [Dictionary.ofList]

end Runs

section Files

/-- What is extracted under a name comes from a library with that name. -/
theorem mem_extractions_iff {file : String × Content} :
    file ∈ extractions s inputs ↔
      ∃ input ∈ inputs, input.isAar ∧ classesOf s input = .ok file.2 ∧
        extractedName input = file.1 := by
  rw [extractions, List.mem_filterMap]
  refine exists_congr fun input => and_congr_right fun _ => ?_
  by_cases haar : input.isAar
  · cases hclasses : classesOf s input with
    | error e => simp [haar, Except.toOption]
    | ok classes => simp [haar, Except.toOption, Prod.ext_iff, and_comm]
  · simp [haar]

/-- The entry of an input leads to what was extracted under its name. -/
theorem fileAt?_entryOf {input : Path}
    (h : input.isAar) :
    cp.fileAt? directory (entryOf directory input) = cp.extracted.get? (extractedName input) := by
  rw [fileAt?, entryOf, if_pos h, Dictionary.get?]
  congr 2
  funext file
  rw [decide_eq_decide]
  exact ⟨Path.text_join_injective, fun hname => by rw [hname, target]⟩

/-- Every library is extracted once, under its name. -/
theorem map_fst_extractions
    (h : ∀ input ∈ inputs, input.isAar → Extractable s directory input) :
    (extractions s inputs).map Prod.fst = (inputs.filter Path.isAar).map extractedName := by
  induction inputs with
  | nil => rfl
  | cons input rest ih =>
      obtain ⟨hinput, hrest⟩ := List.forall_mem_cons.1 h
      by_cases haar : input.isAar
      · obtain ⟨⟨classes, hclasses⟩, -⟩ := hinput haar
        rw [extractions_cons_of_ok haar hclasses, List.filter_cons_of_pos haar, List.map_cons,
          List.map_cons, ih hrest]
      · rw [extractions_cons_of_not_aar haar, List.filter_cons_of_neg haar, ih hrest]

/-- The last input that is extracted under a name decides what is found there. -/
theorem get?_extractions_of_last {earlier later : List Path} {input : Path} {classes : Content}
    (haar : input.isAar)
    (hclasses : classesOf s input = .ok classes)
    (hlast : ∀ q ∈ later, q.isAar → extractedName q ≠ extractedName input) :
    (Dictionary.ofList (extractions s (earlier ++ input :: later))).get? (extractedName input) =
      some classes := by
  rw [extractions_append, extractions_cons_of_ok haar hclasses]
  refine Dictionary.get?_ofList_of_last fun file hfile => ?_
  obtain ⟨q, hq, hqaar, -, hname⟩ := mem_extractions_iff.1 hfile
  exact hname ▸ hlast q hq hqaar

/-- The entry of a library holds its classes exactly if they are what is extracted last under its
name. -/
theorem holdsClasses_iff {input : Path}
    (haar : input.isAar) :
    HoldsClasses s directory cp input ↔
      ∃ classes, classesOf s input = .ok classes ∧
        cp.extracted.get? (extractedName input) = some classes := by
  rw [HoldsClasses, fileAt?_entryOf haar]

/-- What is found under the name of an input comes from an input that is extracted under the same
name. -/
theorem exists_input_of_get? {name : String} {input : Path}
    (hinput : input ∈ inputs)
    (haar : input.isAar)
    (hextractable : Extractable s directory input)
    (hname : extractedName input = name) :
    ∃ q ∈ inputs, q.isAar ∧ extractedName q = name ∧ ∃ classes, classesOf s q = .ok classes ∧
      (Dictionary.ofList (extractions s inputs)).get? name = some classes := by
  obtain ⟨⟨own, hown⟩, -⟩ := hextractable
  cases hget : (Dictionary.ofList (extractions s inputs)).get? name with
  | none =>
      have hmem : (name, own) ∈ extractions s inputs :=
        mem_extractions_iff.2 ⟨input, hinput, haar, hown, hname⟩
      exact absurd rfl (Dictionary.get?_ofList_eq_none_iff.1 hget _ hmem)
  | some classes =>
      obtain ⟨q, hq, hqaar, hclasses, hqname⟩ :=
        mem_extractions_iff.1 (Dictionary.mem_of_get?_ofList hget)
      exact ⟨q, hq, hqaar, hqname, classes, hclasses, rfl⟩

end Files

/-- What the class path of a list of inputs gives access to. -/
structure Access (s : Store) (directory : Path) (inputs : List Path) (cp : Classpath) : Prop where
  /-- Every input has its entry, in order. -/
  entries : cp.entries = inputs.map (entryOf directory)
  /-- All entries of one name hold the classes of the last input that is extracted under it. -/
  last : ∀ earlier input later, inputs = earlier ++ input :: later → input.isAar →
    (∀ q ∈ later, q.isAar → extractedName q ≠ extractedName input) →
    ∃ classes, classesOf s input = .ok classes ∧
      ∀ p ∈ inputs, p.isAar → extractedName p = extractedName input →
        cp.fileAt? directory (entryOf directory p) = some classes
  /-- All entries hold the classes of their own inputs exactly if inputs that are extracted under
  one name hold the same classes. -/
  own : (∀ input ∈ inputs, input.isAar → HoldsClasses s directory cp input) ↔
    ∀ p ∈ inputs, ∀ q ∈ inputs, p.isAar → q.isAar → extractedName p = extractedName q →
      classesOf s p = classesOf s q
  /-- Nothing that was extracted is overwritten exactly if the names are all different. -/
  kept : cp.extracted = extractions s inputs ↔
    ((inputs.filter Path.isAar).map extractedName).Nodup

/-- The class path of a list of inputs, for every list. -/
structure AccessContract (s : Store) (directory : Path) (inputs : List Path) : Prop where
  returns : (∃ cp, ofInputs s directory inputs = .ok cp) ↔
    ∀ input ∈ inputs, input.isAar → Extractable s directory input
  access : ∀ cp, ofInputs s directory inputs = .ok cp → Access s directory inputs cp

/-- If all libraries can be extracted, their entries hold the classes of the last ones of each name.
-/
theorem access_of_extractable
    (h : ∀ input ∈ inputs, input.isAar → Extractable s directory input) :
    Access s directory inputs
      ⟨inputs.map (entryOf directory), Dictionary.ofList (extractions s inputs)⟩ where
  entries := rfl
  last := by
    rintro earlier input later rfl haar hlast
    obtain ⟨⟨classes, hclasses⟩, -⟩ := h input (by simp) haar
    refine ⟨classes, hclasses, fun p _ hp hname => ?_⟩
    rw [fileAt?_entryOf hp, hname]
    exact get?_extractions_of_last haar hclasses hlast
  own := by
    constructor
    · intro hown p hp q hq hpaar hqaar hname
      obtain ⟨classes, hclasses, hget⟩ := (holdsClasses_iff hpaar).1 (hown p hp hpaar)
      obtain ⟨others, hothers, hget'⟩ := (holdsClasses_iff hqaar).1 (hown q hq hqaar)
      rw [hname, hget'] at hget
      rw [hclasses, hothers, Option.some.inj hget]
    · intro hsame input hinput haar
      obtain ⟨q, hq, hqaar, hname, classes, hclasses, hget⟩ :=
        exists_input_of_get? hinput haar (h input hinput haar) rfl
      refine (holdsClasses_iff haar).2 ⟨classes, ?_, hget⟩
      rw [hsame input hinput q hq haar hqaar hname.symm, hclasses]
  kept := by rw [Dictionary.ofList_eq_self_iff, map_fst_extractions h]

/-- There is a class path exactly if all libraries can be extracted, and it gives access to the
classes of all of them exactly if libraries with one extracted name hold the same classes. -/
theorem entries_hold_classes_iff (s : Store) (directory : Path) (inputs : List Path) :
    AccessContract s directory inputs where
  returns := by
    simp only [ofInputs_eq_ok_iff]
    exact ⟨fun ⟨_, h, _⟩ => h, fun h => ⟨_, h, rfl⟩⟩
  access := by
    intro cp hcp
    obtain ⟨h, rfl⟩ := ofInputs_eq_ok_iff.1 hcp
    exact access_of_extractable h

section Libraries

/-- A library that holds the archive of one class. -/
def library (className : String) : Node :=
  .file (.archive [(classesEntry, .archive [(className, .text "")])])

/-- Two libraries of one name in different directories, and a directory for what is extracted. -/
def libraries : Store where
  current := ["w"]
  nodes := [((1, ["w"]), .dir), ((2, ["w", "a"]), .dir), ((2, ["w", "b"]), .dir),
    ((2, ["w", "extracted"]), .dir), ((3, ["w", "a", "lib.aar"]), library "app/A.class"),
    ((3, ["w", "b", "lib.aar"]), library "app/B.class")]

def extractedDirectory : Path := ⟨.current, ["extracted"]⟩

def firstLibrary : Path := ⟨.current, ["a", "lib.aar"]⟩

def secondLibrary : Path := ⟨.current, ["b", "lib.aar"]⟩

theorem classesOf_firstLibrary :
    classesOf libraries firstLibrary = .ok (.archive [("app/A.class", .text "")]) := rfl

theorem classesOf_secondLibrary :
    classesOf libraries secondLibrary = .ok (.archive [("app/B.class", .text "")]) := rfl

theorem accepts_libraries :
    libraries.Accepts ⟨.current, ["extracted", "lib-classes.jar"]⟩ := by
  have hfree : libraries.node? ["w", "extracted", "lib-classes.jar"] = none := rfl
  exact ⟨["w", "extracted", "lib-classes.jar"], rfl, by simp [hfree]⟩

theorem extractable_libraries :
    ∀ input ∈ [firstLibrary, secondLibrary],
      input.isAar ∧ Extractable libraries extractedDirectory input := by
  simp only [List.forall_mem_cons, List.not_mem_nil, false_implies, implies_true, and_true]
  exact ⟨⟨by decide, ⟨_, classesOf_firstLibrary⟩, accepts_libraries⟩,
    ⟨by decide, ⟨_, classesOf_secondLibrary⟩, accepts_libraries⟩⟩

/-- Different inputs may be extracted to one file, which then holds the classes of only one of
them. -/
theorem exists_overwritten_library :
    ∃ s directory inputs cp, inputs.Nodup ∧
      (∀ input ∈ inputs, input.isAar ∧ Extractable s directory input) ∧
      ofInputs s directory inputs = .ok cp ∧
      ∃ input ∈ inputs, ¬ HoldsClasses s directory cp input := by
  have hextractable : ∀ input ∈ [firstLibrary, secondLibrary], input.isAar →
      Extractable libraries extractedDirectory input :=
    fun input hinput _ => (extractable_libraries input hinput).2
  refine ⟨libraries, extractedDirectory, [firstLibrary, secondLibrary], _, by decide,
    extractable_libraries, ofInputs_eq_ok_iff.2 ⟨hextractable, rfl⟩, ?_⟩
  by_contra hnone
  have hsame := (access_of_extractable hextractable).own.1 (fun input hinput _ =>
    not_not.1 fun h => hnone ⟨input, hinput, h⟩) firstLibrary (by simp) secondLibrary (by simp)
    (extractable_libraries _ (by simp)).1 (extractable_libraries _ (by simp)).1 rfl
  rw [classesOf_firstLibrary, classesOf_secondLibrary] at hsame
  simp at hsame

end Libraries

end Classpath
end Facade
