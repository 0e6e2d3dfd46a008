import Facade.Proofs.Respelling
import Facade.Proofs.WrittenNames
import Mathlib.Data.List.DropRight

/-!
# Imports and the text of a file

A file is read twice: once to collect the types that it refers to, once to write it.  A type counts
as written when the text changes with the name of the type, wherever the name may stand.  The
imports count as they stand in the text, where a line that starts with the keyword is one.

**Input.**  A file whose types have simple names without dots, and whose aliases are different.

**Results.**
* `File.readAll_render`: the imports read from the text of a file are those of its names and of its
  aliases.
* `File.writes_iff`: the types written are the types collected.
* `imports_agree_with_text`: every type that is written has a name, it is imported exactly when it
  needs to be, nothing else is imported but for the aliases, and no two imports introduce the same
  name.
* `exists_unmentioned_import`: an alias is imported even if its type is not written.
-/

namespace Facade

namespace Text

/-- Some characters, none of them blank. -/
def IsSolid (s : String) : Prop :=
  s ≠ "" ∧ s.toList.any isBlank = false

instance (s : String) : Decidable (IsSolid s) :=
  inferInstanceAs (Decidable (s ≠ "" ∧ s.toList.any isBlank = false))

/-- A blank is no character of a name without blanks. -/
theorem IsSolid.not_mem {s : String} {c : Char}
    (h : IsSolid s)
    (hblank : isBlank c = true) :
    c ∉ s.toList :=
  fun hc => List.any_eq_false.1 h.2 c hc hblank

theorem trimEndChars_isPrefix (cs : List Char) :
    trimEndChars cs <+: cs :=
  List.rdropWhile_prefix isBlank cs

/-- Nothing is trimmed from a text that ends with a name. -/
theorem trimEnd_append {s : String} (lead : String)
    (h : IsSolid s) :
    trimEnd (lead ++ s) = lead ++ s := by
  have hne : s.toList ≠ [] := by simpa using h.1
  have hself : trimEndChars (lead ++ s).toList = (lead ++ s).toList := by
    refine List.rdropWhile_eq_self_iff.2 fun hl => ?_
    simp only [String.toList_append, List.getLast_append_of_ne_nil _ hne]
    exact List.any_eq_false.1 h.2 _ (List.getLast_mem hne)
  rw [trimEnd, hself, String.ofList_toList]

end Text

namespace Source

open Text

namespace Import

/-- The import that a line of a text is. -/
def read? (line : String) : Option Import :=
  (afterChars? "import ".toList line.toList).map fun rest =>
    match cutFirst? ' ' rest with
    | none => { qualified := String.ofList rest }
    | some (qualified, rest) =>
        { qualified := String.ofList qualified
          short? := (afterChars? "as ".toList rest).map String.ofList }

/-- The imports in a text. -/
def readAll (text : String) : List Import :=
  (lines text).filterMap read?

/-- The imports among lines that are still to be tidied. -/
def among (ls : List String) : List Import :=
  (ls.flatMap lines).filterMap fun line => read? (trimEnd line)

theorem among_append (ls ls' : List String) :
    among (ls ++ ls') = among ls ++ among ls' := by
  simp [among]

theorem among_paragraph (ls : List String) :
    among (paragraph ls) = among ls := by
  have hempty : among [""] = [] := by decide
  rw [paragraph]
  split
  · next h => rw [List.isEmpty_iff.1 h]
  · rw [among_append, hempty, List.append_nil]

/-- The lines of a tidied text are the lines, trimmed, and one empty line. -/
theorem lines_tidied (ls : List String) :
    lines (tidied ls) = (lines (unlines ls)).map trimEnd ++ [""] := by
  have hne : (lines (unlines ls)).map trimEnd ≠ [] := by
    simpa [lines, splitAt] using pieces_ne_nil '\n' (unlines ls).toList
  have hsingle : ∀ line ∈ (lines (unlines ls)).map trimEnd, lines line = [line] := by
    intro trimmed htrimmed
    obtain ⟨line, hline, rfl⟩ := List.mem_map.1 htrimmed
    refine splitAt_of_not_mem fun hmem => ?_
    have hend : '\n' ∈ line.toList :=
      (trimEndChars_isPrefix line.toList).subset (by simpa [trimEnd] using hmem)
    exact (mem_of_mem_splitAt hline hend).2 rfl
  have hlast : tidied ls = unlines ((lines (unlines ls)).map trimEnd) ++ "\n" ++ "" := by
    simp [tidied]
  rw [hlast, lines_append, lines_unlines hne, List.flatMap_congr hsingle]
  simp [lines, splitAt, pieces]

/-- The imports in a tidied text are those among its lines. -/
theorem readAll_tidied (ls : List String) :
    readAll (tidied ls) = among ls := by
  have hempty : read? "" = none := by decide
  rw [readAll, lines_tidied, List.filterMap_append, List.filterMap_map, among]
  cases ls with
  | nil => decide
  | cons line rest =>
      rw [lines_unlines (by simp)]
      simp [hempty]

/-- Trimming makes no import of a line that is none. -/
theorem read?_trimEnd {line : String}
    (h : read? line = none) :
    read? (trimEnd line) = none := by
  rw [read?, Option.map_eq_none_iff] at h ⊢
  by_contra hsome
  obtain ⟨rest, hrest⟩ := Option.ne_none_iff_exists'.1 hsome
  obtain ⟨blanks, hblanks⟩ := trimEndChars_isPrefix line.toList
  have hchars : (trimEnd line).toList = trimEndChars line.toList := String.toList_ofList
  rw [← hchars, afterChars?_eq_some_iff.1 hrest, List.append_assoc] at hblanks
  rw [afterChars?_eq_some_iff.2 hblanks.symm] at h
  exact absurd h (by simp)

theorem among_eq_nil {ls : List String}
    (h : ∀ line ∈ ls, readAll line = []) :
    among ls = [] := by
  rw [among, List.filterMap_eq_nil_iff]
  intro line hline
  obtain ⟨whole, hwhole, hline⟩ := List.mem_flatMap.1 hline
  exact read?_trimEnd (List.filterMap_eq_nil_iff.1 (h whole hwhole) line hline)

/-- The names in an import have no blanks. -/
def IsSolid (i : Import) : Prop :=
  Text.IsSolid i.qualified ∧ ∀ short ∈ i.short?, Text.IsSolid short

/-- The line of an import is read as that import. -/
theorem read?_line {i : Import}
    (h : i.IsSolid) :
    read? i.line = some i := by
  have hspace : ' ' ∉ i.qualified.toList := h.1.not_mem (by decide)
  obtain ⟨qualified, _ | short⟩ := i
  · have hline : (line ⟨qualified, none⟩).toList = "import ".toList ++ qualified.toList := by
      simp [line]
    rw [read?, hline, afterChars?_append, Option.map_some, cutFirst?_eq_none hspace]
    simp
  · have hline : (line ⟨qualified, some short⟩).toList =
        "import ".toList ++ (qualified.toList ++ ' ' :: ("as ".toList ++ short.toList)) := by
      simp [line]
    rw [read?, hline, afterChars?_append, Option.map_some, cutFirst?_append hspace]
    dsimp only
    rw [afterChars?_append, Option.map_some, String.ofList_toList, String.ofList_toList]

/-- The line of an import is one line, with no blank to trim. -/
theorem among_line {i : Import}
    (h : i.IsSolid) :
    among [i.line] = [i] := by
  have hend : '\n' ∉ i.qualified.toList := h.1.not_mem (by decide)
  have hline : '\n' ∉ i.line.toList ∧ trimEnd i.line = i.line := by
    obtain ⟨qualified, _ | short⟩ := i
    · exact ⟨by simpa [line] using hend, trimEnd_append _ h.1⟩
    · have hshort := h.2 short rfl
      have hend' := hshort.not_mem (show isBlank '\n' = true by decide)
      exact ⟨by simp_all [line], trimEnd_append _ hshort⟩
  have hlines : lines i.line = [i.line] := splitAt_of_not_mem hline.1
  simp [among, hlines, hline.2, read?_line h]

end Import

section Written

variable {f : File} {key : Key}

/-- The imports of a file can be told from the rest of its text: no name in them has a blank, and no
line of the members looks like one. -/
structure File.TellsImports (f : File) : Prop where
  package : '\n' ∉ f.package.toList
  types : ∀ s ∈ f.references, IsSolid s.qualified
  aliases : ∀ entry ∈ f.aliases, IsSolid entry.1 ∧ IsSolid entry.2
  members : ∀ line ∈ f.memberLines (Namer.ofFile f), Import.readAll line = []

/-- The imports of such a file are made of names without blanks. -/
theorem File.TellsImports.isSolid
    (h : f.TellsImports) :
    ∀ i ∈ f.imports, i.IsSolid := by
  intro i hi
  rcases File.mem_imports.1 hi with ⟨q, hq, rfl⟩ | ⟨entry, hentry, rfl⟩
  · obtain ⟨s, hs, rfl⟩ := Namer.exists_reference_of_mem_imports hq
    exact ⟨h.types s hs, by simp⟩
  · exact ⟨(h.aliases entry hentry).1, by simpa using (h.aliases entry hentry).2⟩

theorem File.among_packageLines
    (h : '\n' ∉ f.package.toList) :
    Import.among f.packageLines = [] := by
  refine Import.among_eq_nil fun line hline => ?_
  rw [File.packageLines] at hline
  split at hline
  · exact absurd hline List.not_mem_nil
  · obtain rfl := List.mem_singleton.1 hline
    have hend : '\n' ∉ ("package " ++ f.package).toList := by simpa using h
    have hlines : lines ("package " ++ f.package) = ["package " ++ f.package] :=
      splitAt_of_not_mem hend
    simp [Import.readAll, hlines, Import.read?, afterChars?]

/-- The lines of imports are read as these imports. -/
theorem Import.among_map_line {imports : List Import}
    (h : ∀ i ∈ imports, i.IsSolid) :
    among (imports.map line) = imports := by
  induction imports with
  | nil => rfl
  | cons i rest ih =>
      obtain ⟨hi, hrest⟩ := List.forall_mem_cons.1 h
      rw [List.map_cons, ← List.singleton_append, among_append, among_line hi, ih hrest]
      rfl

/-- The imports in the text of a file are the imports of the file. -/
theorem File.readAll_render
    (h : f.TellsImports) :
    Import.readAll f.render = f.imports := by
  rw [File.render, File.renderBy, ← File.imports, Import.readAll_tidied, Import.among_append,
    Import.among_append, Import.among_paragraph, Import.among_paragraph,
    among_packageLines h.package, Import.among_map_line h.isSolid, Import.among_eq_nil h.members,
    List.nil_append, List.append_nil]

/-- Another text for the type of a key. -/
def Namer.renamed (n : Namer) (key : Key) (text : String) : Namer :=
  { n with aliases := n.aliases.put key.qualified text }

/-- The text of a file changes with the name of a type. -/
def File.Writes (f : File) (key : Key) : Prop :=
  ∃ text, f.renderBy ((Namer.ofFile f).renamed key text) ≠ f.render

theorem Namer.rawName_renamed (n : Namer) (key : Key) (text : String) :
    (n.renamed key text).rawName key = text := by
  rw [Namer.rawName, Namer.renamed, Dictionary.get?_put_self]

theorem Namer.rawName_renamed_of_ne {n : Namer} {k : Key} (text : String)
    (h : k.qualified ≠ key.qualified) :
    (n.renamed key text).rawName k = n.rawName k := by
  simp only [Namer.rawName, Namer.renamed, Dictionary.get?_put_of_ne _ _ h]

/-- Another name for a type changes the names of the types by that one only. -/
theorem respelled_renamed (text : String)
    (hplain : f.HasPlainNames)
    (hkey : key.IsPlain) :
    Respelled (Namer.ofFile f) ((Namer.ofFile f).renamed key text)
      (weight text - weight ((Namer.ofFile f).rawName key)) key f.references := by
  intro s hs _
  by_cases hs' : s.key = key
  · rw [if_pos hs', hs', Namer.rawName_renamed]
    exact ⟨by ring, by simp⟩
  · rw [if_neg hs', Namer.rawName_renamed_of_ne text]
    · exact Shift.refl _
    · exact fun hq => hs' (Key.qualified_injective_of_plain (hplain s hs) hkey hq)

/-- The types written are the types referred to. -/
theorem File.writes_iff
    (hplain : f.HasPlainNames)
    (hkey : key.IsPlain) :
    f.Writes key ↔ ∃ s ∈ f.references, s.isFunction = false ∧ s.key = key := by
  have hshift := fun text => File.shift_renderBy
    (show (Namer.ofFile f).imports = ((Namer.ofFile f).renamed key text).imports from rfl)
    (respelled_renamed text hplain hkey)
  have hoccurs : (∃ s ∈ f.references, s.isFunction = false ∧ s.key = key) ↔
      occurrences key f.references ≠ 0 := by
    rw [← Nat.pos_iff_ne_zero, occurrences, List.countP_pos_iff]
    simp
  rw [hoccurs]
  constructor
  · rintro ⟨text, hne⟩ hzero
    exact hne ((hshift text).same hzero).symm
  · -- one more letter in the name, one more letter in the text at every occurrence
    intro hoccurs
    refine ⟨(Namer.ofFile f).rawName key ++ "x", fun hsame => hoccurs ?_⟩
    have hlonger := (hshift ((Namer.ofFile f).rawName key ++ "x")).longer
    have hletter : weight "x" = 1 := by decide
    have hone : ((weight ((Namer.ofFile f).rawName key) + 1 : Nat) : Int) -
        weight ((Namer.ofFile f).rawName key) = 1 := by omega
    rw [hsame, File.render, weight_append, hletter, hone, mul_one] at hlonger
    omega

/-- The imports of a file are those that its text needs, and its aliases. -/
structure File.ImportsItsText (f : File) : Prop where
  /-- The imports are the import lines of the text. -/
  read : f.TellsImports → Import.readAll f.render = f.imports
  /-- What is collected is what is written. -/
  collected : ∀ {k : Key}, k.IsPlain →
    (f.Writes k ↔ ∃ s ∈ f.references, s.isFunction = false ∧ s.key = k)
  /-- Whatever is written was given a name before. -/
  named : ∀ {k : Key}, k.IsPackaged → k.IsPlain → f.aliases.has k.qualified = false →
    f.Writes k → (Namer.ofFile f).names.get? k.qualified = some ((Namer.ofFile f).rawName k)
  /-- A type of another package is imported when it is written by its simple name. -/
  imported : ∀ {k : Key}, k.IsPackaged → k.IsPlain → f.aliases.has k.qualified = false →
    f.Writes k →
      ({ qualified := k.qualified } ∈ f.imports ↔
        (Namer.ofFile f).rawName k = k.name ∧ IsForeign f.package k)
  /-- Nothing that is not written is imported by its own name. -/
  mentioned : ∀ i ∈ f.imports, i.short? = none →
    ∃ k : Key, k.IsPackaged ∧ k.IsPlain ∧ f.aliases.has k.qualified = false ∧ f.Writes k ∧
      k.qualified = i.qualified
  /-- Every alias is imported, and nothing else by another name. -/
  aliased : ∀ {q short : String},
    { qualified := q, short? := some short } ∈ f.imports ↔ (q, short) ∈ f.aliases
  /-- No simple name is introduced twice. -/
  introduced : (f.imports.map Import.name).Nodup

/-- A type that is written and has no alias is one of the types that are given names. -/
theorem File.mem_unaliased_of_writes
    (hplain : f.HasPlainNames)
    (hkey : key.IsPackaged ∧ key.IsPlain)
    (halias : f.aliases.has key.qualified = false)
    (h : f.Writes key) :
    key ∈ Namer.unaliased f := by
  obtain ⟨s, hs, hfunction, hsame⟩ := (File.writes_iff hplain hkey.2).1 h
  exact Namer.mem_unaliased.2 ⟨Namer.mem_keys.2 ⟨s, hs, hfunction, hsame, hkey.1⟩, halias⟩

theorem File.writes_of_mem_keys
    (hplain : f.HasPlainNames)
    (h : key ∈ Namer.keys f) :
    key.IsPackaged ∧ key.IsPlain ∧ f.Writes key := by
  obtain ⟨s, hs, hfunction, hsame, -⟩ := Namer.mem_keys.1 h
  obtain ⟨hpackaged, hname⟩ := Namer.mem_keys_well_formed hplain h
  exact ⟨hpackaged, hname, (File.writes_iff hplain hname).2 ⟨s, hs, hfunction, hsame⟩⟩

/-- The imports of a file are read from its text, agree with the types that the text is made of, and
introduce no name twice; only the aliases are imported whether or not their types are written. -/
theorem imports_agree_with_text
    (hplain : f.HasPlainNames)
    (hdistinct : f.HasDistinctAliases) :
    f.ImportsItsText where
  read := File.readAll_render
  collected := File.writes_iff hplain
  named hpackaged hname halias hwritten :=
    Namer.get?_names_of_mem hplain
      (File.mem_unaliased_of_writes hplain ⟨hpackaged, hname⟩ halias hwritten)
  imported hpackaged hname halias hwritten :=
    File.plain_mem_imports.trans (Namer.mem_imports_iff hplain
      (File.mem_unaliased_of_writes hplain ⟨hpackaged, hname⟩ halias hwritten))
  mentioned i hi hshort := by
    obtain ⟨q, rfl⟩ : ∃ q, i = { qualified := q } := ⟨i.qualified, by rw [← hshort]⟩
    obtain ⟨k, hk, -, -, -, hname⟩ :=
      (Namer.settled_ofFile hplain).imported.1 (File.plain_mem_imports.1 hi)
    obtain ⟨hmem, halias⟩ := Namer.mem_unaliased.1 hk
    obtain ⟨hpackaged, hplain', hwritten⟩ := File.writes_of_mem_keys hplain hmem
    exact ⟨k, hpackaged, hplain', halias, hwritten, hname⟩
  aliased := File.short_mem_imports
  introduced := File.nodup_names_imports hplain hdistinct

/-- A file with boxes of three packages, one of them under an alias. -/
def shelf : File where
  package := "app"
  name := "Shelf"
  aliases := [("c.Box", "OtherBox")]
  members :=
    [.property
      { name := "handler"
        type := .functionOf [{ name := "Box", package := "a" }] { name := "Box", package := "b" } },
     .type
      { kind := .cls
        name := "Shelf"
        annotations := [{ name := "Label", package := "b" }]
        superclass := some { name := "Box", package := "c", args := [.double] } }]

theorem tellsImports_shelf : shelf.TellsImports := by
  have hkeys : Namer.keys shelf =
      [⟨"a", "Box"⟩, ⟨"b", "Box"⟩, ⟨"b", "Label"⟩, ⟨"c", "Box"⟩, ⟨"kotlin", "Double"⟩] :=
    List.mergeSort_of_pairwise (by decide +kernel)
  refine ⟨by decide, by decide +kernel, by decide, ?_⟩
  rw [Namer.ofFile, hkeys]
  decide +kernel

theorem imports_agree_with_text_of_shelf :
    shelf.HasPlainNames ∧ shelf.HasDistinctAliases ∧ shelf.ImportsItsText ∧
      shelf.Writes ⟨"a", "Box"⟩ ∧
      { qualified := "c.Box", short? := some "OtherBox" } ∈ Import.readAll shelf.render := by
  have hplain : shelf.HasPlainNames := by decide +kernel
  have hdistinct : shelf.HasDistinctAliases := by decide
  have hagree := imports_agree_with_text hplain hdistinct
  refine ⟨hplain, hdistinct, hagree, ?_, ?_⟩
  · exact (hagree.collected (by decide)).2 (by decide +kernel)
  · rw [hagree.read tellsImports_shelf]
    exact hagree.aliased.2 (by decide)

/-- A file with an alias for a type that it does not refer to. -/
def emptyShelf : File where
  package := "app"
  name := "Shelf"
  aliases := [("c.Box", "OtherBox")]
  members := [.property { name := "size", type := .int }]

/-- A type is imported that the text does not mention. -/
theorem exists_unmentioned_import :
    ∃ f : File, f.HasPlainNames ∧ f.HasDistinctAliases ∧
      ∃ i ∈ Import.readAll f.render, ∃ k : Key, k.IsPackaged ∧ k.IsPlain ∧
        k.qualified = i.qualified ∧ ¬ f.Writes k := by
  have hplain : emptyShelf.HasPlainNames := by decide
  have htells : emptyShelf.TellsImports := by
    have hkeys : Namer.keys emptyShelf = [⟨"kotlin", "Int"⟩] := List.mergeSort_singleton _
    refine ⟨by decide, by decide, by decide, ?_⟩
    rw [Namer.ofFile, hkeys]
    decide +kernel
  refine ⟨emptyShelf, hplain, by decide, { qualified := "c.Box", short? := some "OtherBox" }, ?_,
    ⟨"c", "Box"⟩, by decide, by decide, by decide, ?_⟩
  · rw [File.readAll_render htells, File.short_mem_imports]
    decide
  · rw [File.writes_iff hplain (by decide)]
    decide

end Written

end Source

end Facade
