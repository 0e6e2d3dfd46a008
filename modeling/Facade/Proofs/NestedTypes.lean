import Facade.Proofs.WrittenNames
import Facade.Shape.BinaryName
import Mathlib.Data.List.TakeWhile

/-!
# Imports of nested types

The name of a nested type has dots in it: the types around it stand before its own name.  A name is
read from the left, so its first segment has to be introduced by an import of the outermost type.
A file imports the whole dotted name, which introduces the last segment only.

**Input.**  A file, and a type of another package that it refers to and that it writes neither by an
alias nor by its dotted name.

**Algorithm.**  Names are given out whether or not they have dots.  A type is imported when it comes
first for its whole name.

**Results.**
* `File.opens_iff_introduces_outermost`: which import opens a name.
* `nested_types_opened_iff`: the name of a type is opened by an import exactly if the outermost type
  in it is itself introduced by one.
-/

namespace Facade

namespace Key

/-- The first segment of a dotted name. -/
def firstSegment (name : String) : String :=
  String.ofList (name.toList.takeWhile (· ≠ '.'))

/-- The type that encloses all others in a name, and a type itself if it is not nested. -/
def outermost (k : Key) : Key :=
  ⟨k.package, firstSegment k.name⟩

theorem exists_append_firstSegment (name : String) :
    ∃ rest, name = firstSegment name ++ rest := by
  refine ⟨String.ofList (name.toList.dropWhile (· ≠ '.')), ?_⟩
  rw [firstSegment, ← String.ofList_append, List.takeWhile_append_dropWhile, String.ofList_toList]

/-- The outermost type is not nested. -/
theorem isPlain_outermost (k : Key) :
    k.outermost.IsPlain := by
  intro hdot
  rw [outermost, firstSegment, String.toList_ofList] at hdot
  simpa using List.mem_takeWhile_imp hdot

/-- A type is its own outermost type exactly if it is not nested. -/
theorem outermost_eq_iff {k : Key} :
    k.outermost = k ↔ k.IsPlain := by
  refine ⟨fun h => h ▸ k.isPlain_outermost, fun h => ?_⟩
  have hall : k.name.toList.takeWhile (· ≠ '.') = k.name.toList := by
    rw [List.takeWhile_eq_self_iff]
    intro c hc
    have hne : c ≠ '.' := by
      rintro rfl
      exact h hc
    simpa using hne
  rw [outermost, firstSegment, hall, String.ofList_toList]

/-- The dotted name of a type goes on after its outermost type as its name does. -/
theorem qualified_outermost {k : Key} {rest : String}
    (hpackaged : k.IsPackaged)
    (h : k.name = firstSegment k.name ++ rest) :
    k.qualified = k.outermost.qualified ++ rest := by
  have houter : k.outermost.IsPackaged := hpackaged
  rw [← String.toList_inj, String.toList_append, toList_qualified hpackaged,
    toList_qualified houter, List.append_assoc, List.cons_append]
  rw [outermost, ← String.toList_append, ← h]

end Key

namespace Source

namespace File

/-- The file imports the dotted name of a type: it refers to a type of another package that has it
and that comes first for its own name. -/
def Fetches (f : File) (k : Key) : Prop :=
  ∃ m ∈ Namer.unaliased f, m.qualified = k.qualified ∧ IsForeign f.package m ∧ f.ComesFirst m

/-- An import introduces a type by its simple name: the type is imported, or it has an alias that is
no other name. -/
def Introduces (f : File) (k : Key) : Prop :=
  f.Fetches k ∨ (k.qualified, k.name) ∈ f.aliases

/-- The first segment of the name that a type is called by is introduced by an import, which stands
for the enclosing type of that name: the dotted name goes on after the import as the name does after
its first segment. -/
def Opens (f : File) (k : Key) : Prop :=
  ∃ i ∈ f.imports,
    i.name = Key.firstSegment ((Namer.ofFile f).rawName k) ∧
      ∃ rest, (Namer.ofFile f).rawName k = Key.firstSegment ((Namer.ofFile f).rawName k) ++ rest ∧
        k.qualified = i.qualified ++ rest

end File

section Nesting

open Namer

variable {f : File} {s : Shape} {k l : Key}

/-- A type is imported under its own name exactly if the file fetches it. -/
theorem File.mem_imports_iff_fetches :
    { qualified := k.qualified } ∈ f.imports ↔ f.Fetches k :=
  File.plain_mem_imports.trans mem_imports_iff_comesFirst

/-- An import opens the name of a type exactly if it introduces its outermost type. -/
theorem File.opens_iff_introduces_outermost
    (hpackaged : l.IsPackaged)
    (hqualified : l.qualified = k.qualified)
    (hname : (ofFile f).rawName k = l.name) :
    f.Opens k ↔ f.Introduces l.outermost := by
  rw [File.Opens, hname, ← hqualified]
  constructor
  · rintro ⟨i, hi, hfirst, rest, hrest, hwhole⟩
    rw [Key.qualified_outermost hpackaged hrest, String.append_left_inj] at hwhole
    rcases File.mem_imports.1 hi with ⟨q, hq, rfl⟩ | ⟨entry, hentry, rfl⟩
    · exact .inl (File.mem_imports_iff_fetches.1 (hwhole ▸ hi))
    · refine .inr ?_
      have hshort : entry.2 = l.outermost.name := hfirst
      rwa [hwhole, ← hshort]
  · intro hintroduced
    obtain ⟨rest, hrest⟩ := Key.exists_append_firstSegment l.name
    have hwhole := Key.qualified_outermost hpackaged hrest
    rcases hintroduced with hfetches | halias
    · exact ⟨_, File.mem_imports_iff_fetches.2 hfetches,
        importedName_qualified ⟨hpackaged, l.isPlain_outermost⟩, rest, hrest, hwhole⟩
    · exact ⟨_, File.short_mem_imports.2 halias, rfl, rest, hrest, hwhole⟩

/-- The name by which a type of another package is called is opened by an import exactly if its
outermost type is introduced by one. -/
theorem nested_types_opened_iff
    (hs : s ∈ f.references)
    (halias : f.aliases.has s.qualified = false)
    (hshort : (ofFile f).rawName s.key ≠ s.qualified)
    (hforeign : IsForeign f.package s.key) :
    ∃ l ∈ unaliased f, l.qualified = s.qualified ∧
      (ofFile f).name s =
        l.name ++ Shape.bracketed ((ofFile f).nameAll s.args) ++ Shape.mark s.nullable ∧
      (f.Opens s.key ↔ f.Introduces l.outermost) ∧
      ((∀ m ∈ unaliased f, m.qualified = s.qualified → m = s.key) →
        l = s.key ∧ { qualified := s.qualified } ∈ f.imports ∧
          (f.Opens s.key ↔ s.key.IsPlain ∨ f.Introduces s.key.outermost)) := by
  have hfunction : s.isFunction = false :=
    Shape.isFunction_of_package fun h => hforeign.2 (by simp [Shape.key, h, Shape.defaultImports])
  have hpackaged : s.key.IsPackaged := fun h => hshort (rawName_of_unpackaged h halias)
  obtain ⟨l, hl, hqualified, -, ⟨hfirst, hname⟩ | ⟨-, hname⟩⟩ :=
    exists_rawName (mem_unaliased_of_reference hs hfunction hpackaged halias)
  case inr => exact absurd hname hshort
  have hopens :=
    File.opens_iff_introduces_outermost (isPackaged_of_mem_unaliased hl) hqualified hname
  refine ⟨l, hl, hqualified, ?_, hopens, fun hunique => ?_⟩
  · rw [Namer.name_of_not_function hfunction, hname]
  · obtain rfl := hunique l hl hqualified
    have hfetched : f.Fetches s.key :=
      ⟨s.key, hl, rfl, hforeign, hfirst⟩
    refine ⟨rfl, File.mem_imports_iff_fetches.2 hfetched, hopens.trans ⟨.inr, ?_⟩⟩
    rintro (hplain | houtermost)
    · rw [Key.outermost_eq_iff.2 hplain]
      exact .inl hfetched
    · exact houtermost

/-- The type of an album. -/
def album : Shape :=
  .ofBinaryName "music.Album" [] false

/-- The type of the tracks of an album, which is nested in that of albums. -/
def track : Shape :=
  .ofBinaryName "music.Album$Track" [] false

/-- A file of another package that refers to some types. -/
def playlist (types : List Shape) : File where
  package := "app"
  name := "Playlist"
  members := types.map fun s => .property { name := "item", type := s }

/-- What the nested type is called with and without a reference to albums. -/
theorem names_playlist :
    (track ∈ (playlist [album, track]).references ∧
      IsForeign (playlist [album, track]).package track.key ∧
      (∀ m ∈ unaliased (playlist [album, track]), m.qualified = track.qualified → m = track.key) ∧
      (ofFile (playlist [album, track])).rawName track.key ≠ track.qualified ∧
      track.key.outermost.qualified ∈ (ofFile (playlist [album, track])).imports) ∧
    track ∈ (playlist [track]).references ∧ IsForeign (playlist [track]).package track.key ∧
      track.key.IsPackaged ∧
      (ofFile (playlist [track])).rawName track.key = track.key.name ∧
      (ofFile (playlist [track])).name track = "Album.Track" ∧
      (ofFile (playlist [track])).imports = ["music.Album.Track"] ∧
      track.key.outermost.qualified ≠ "music.Album.Track" := by
  have hboth : keys (playlist [album, track]) = [album.key, track.key] :=
    List.mergeSort_of_pairwise (by decide +kernel)
  have hone : keys (playlist [track]) = [track.key] := List.mergeSort_singleton _
  simp only [unaliased, ofFile, hboth, hone]
  decide +kernel

/-- Beside a reference to albums, the name of the nested type is opened. -/
theorem nested_types_opened_iff_of_album :
    track ∈ (playlist [album, track]).references ∧
      (playlist [album, track]).aliases.has track.qualified = false ∧
      (ofFile (playlist [album, track])).rawName track.key ≠ track.qualified ∧
      IsForeign (playlist [album, track]).package track.key ∧
      (playlist [album, track]).Opens track.key := by
  obtain ⟨⟨hs, hforeign, hkey, hshort, himport⟩, -⟩ := names_playlist
  refine ⟨hs, rfl, hshort, hforeign, ?_⟩
  obtain ⟨l, -, -, -, -, hunique⟩ := nested_types_opened_iff hs rfl hshort hforeign
  exact (hunique hkey).2.2.2 (.inr (.inl (mem_imports_iff_comesFirst.1 himport)))

/-- Without one, the nested type is imported and called by its name, which nothing opens. -/
theorem playlist_opens_no_album :
    track ∈ (playlist [track]).references ∧ (playlist [track]).aliases.has track.qualified = false ∧
      (ofFile (playlist [track])).name track = "Album.Track" ∧
      (playlist [track]).imports = [{ qualified := "music.Album.Track" }] ∧
      IsForeign (playlist [track]).package track.key ∧ ¬ (playlist [track]).Opens track.key := by
  obtain ⟨-, hs, hforeign, hpackaged, hshort, hname, himports, hother⟩ := names_playlist
  refine ⟨hs, rfl, hname, ?_, hforeign, ?_⟩
  · have haliases : (playlist [track]).aliases = [] := rfl
    rw [File.imports, importsOf, sortedImports, himports, haliases, List.mergeSort_singleton,
      List.mergeSort_nil]
    rfl
  · rw [File.opens_iff_introduces_outermost hpackaged rfl hshort]
    rintro (hfetches | halias)
    · have himport := mem_imports_iff_comesFirst.2 hfetches
      rw [himports, List.mem_singleton] at himport
      exact hother himport
    · exact absurd halias List.not_mem_nil

end Nesting

end Source

end Facade
