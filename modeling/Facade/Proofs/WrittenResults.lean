import Facade.Proofs.ExactOutput
import Facade.Proofs.WritablePaths

/-!
# Written files, what is known about them, and the manifest

The files of the results are written one after the other, and a later one may be written over an
earlier one.  What is on disk, what is recorded and what the manifest lists stay in step: all three
are those of the last result with its package and name.

**Input.**  A tree of files, the output directory, and results whose packages are empty or made of
segments that are not, without slashes.

**Algorithm.**  A file is named after its package and its name.  Directories are named by segments,
which hold no dot, and files by names that hold one, so that no file is in the way of another one.

**Results.**
* `pathOf_eq_iff`: two files have one path exactly if they have the same package and the same name.
* `Settled.writeDeep`: what can be written before a file was written can be written after it.
* `writeAll_isOk_iff`: all files can be written exactly if every one of them can.
* `get?_writeAll`: the sources of the last result with a path are recorded.
* `written_files_and_manifest_agree`: what is on disk, recorded and listed.
-/

namespace Facade

namespace Text

/-- A text can be told from its pieces. -/
theorem splitAt_injective {separator : Char} {s t : String}
    (h : splitAt separator s = splitAt separator t) :
    s = t := by
  have hpieces : pieces separator s.toList = pieces separator t.toList :=
    (List.map_inj_right fun a b hab => String.ofList_inj.1 hab).1 h
  rw [← String.toList_inj, ← intercalate_pieces separator s.toList, hpieces, intercalate_pieces]

end Text

namespace Source.File

/-- The package is empty or has no empty segment, and there is no slash in it or in the name. -/
structure IsNamed (F : File) : Prop where
  segments : F.package = "" ∨ "" ∉ Text.splitAt '.' F.package
  package : '/' ∉ F.package.toList
  name : '/' ∉ F.name.toList

end Source.File

namespace Output

variable {directory : Path} {s t : Store} {results : List ExportResult}

/-- The files of the results are named as files of a package are. -/
def AreNamed (results : List ExportResult) : Prop :=
  ∀ r ∈ results, ∀ F, r.file = some F → F.IsNamed

section Names

variable {F G : Source.File}

theorem arePlain_of_areNamed
    (h : AreNamed results) :
    ArePlain results :=
  fun r hr F hfile => ⟨(h r hr F hfile).package, (h r hr F hfile).name⟩

theorem not_dot_of_mem_segments {package segment : String}
    (h : segment ∈ (Text.splitAt '.' package).filter Path.isPart) :
    '.' ∉ segment.toList :=
  fun hdot => (Text.mem_of_mem_splitAt (List.mem_filter.1 h).1 hdot).2 rfl

/-- The segments of a package are the directories of its files. -/
theorem segments_of_isNamed
    (h : F.IsNamed) :
    (Text.splitAt '.' F.package).filter Path.isPart =
      if F.package = "" then [] else Text.splitAt '.' F.package := by
  split
  · next hempty =>
      rw [hempty]
      rfl
  · next hne =>
      refine List.filter_eq_self.2 fun segment hsegment => ?_
      have hnonempty : segment ≠ "" := by
        rintro rfl
        exact h.segments.elim hne (fun hnot => hnot hsegment)
      have hdot : segment ≠ "." := by
        rintro rfl
        exact (Text.mem_of_mem_splitAt hsegment (List.mem_singleton_self '.')).2 rfl
      simp [Path.isPart, hnonempty, hdot]

/-- The parts of a file tell its package and its name. -/
theorem partsFor_eq_iff
    (hF : F.IsNamed)
    (hG : G.IsNamed) :
    partsFor F.package F.name = partsFor G.package G.name ↔
      F.package = G.package ∧ F.name = G.name := by
  constructor
  · intro h
    obtain ⟨hsegments, hlast⟩ := List.append_inj' h rfl
    refine ⟨?_, ?_⟩
    · rw [segments_of_isNamed hF, segments_of_isNamed hG] at hsegments
      have hne : ∀ package : String, Text.splitAt '.' package ≠ [] := fun package => by
        simpa [Text.splitAt] using Text.pieces_ne_nil '.' package.toList
      split at hsegments
      · next hempty =>
          split at hsegments
          · next hempty' => rw [hempty, hempty']
          · exact absurd hsegments.symm (hne _)
      · split at hsegments
        · exact absurd hsegments (hne _)
        · exact Text.splitAt_injective hsegments
    · simpa using hlast
  · rintro ⟨hpackage, hname⟩
    rw [hpackage, hname]

theorem pathOf_of_isNamed
    (directory : Path)
    (h : F.IsNamed) :
    pathOf directory F = directory.join ⟨.current, partsFor F.package F.name⟩ :=
  pathFor_eq directory h.package h.name

/-- Two files have one path exactly if they have one package and one name. -/
theorem pathOf_eq_iff
    (directory : Path)
    (hF : F.IsNamed)
    (hG : G.IsNamed) :
    pathOf directory F = pathOf directory G ↔ F.package = G.package ∧ F.name = G.name := by
  rw [← partsFor_eq_iff hF hG, pathOf_of_isNamed directory hF, pathOf_of_isNamed directory hG]
  exact ⟨Path.join_injective, fun h => by rw [h]⟩

end Names

section Room

/-- A path that leads from a directory through names without a dot to a name that holds one. -/
def IsLeaf (directory path : Path) : Prop :=
  ∃ segments last, path = directory.join ⟨.current, segments ++ [last]⟩ ∧
    (∀ segment ∈ segments, '.' ∉ segment.toList) ∧ '.' ∈ last.toList ∧ last ≠ ".."

/-- The path of a file leads through names without a dot to a name that holds one. -/
theorem isLeaf_pathOf {F : Source.File}
    (directory : Path)
    (h : F.IsNamed) :
    IsLeaf directory (pathOf directory F) := by
  refine ⟨_, _, pathOf_of_isNamed directory h, fun _ => not_dot_of_mem_segments, by simp, ?_⟩
  intro hdots
  have hend := congrArg (fun s => s.toList.getLast?) hdots
  simp at hend

theorem isLeaf_manifestPath (directory : Path) :
    IsLeaf directory (manifestPath directory) :=
  ⟨[], manifestName, rfl, by simp, by decide, by decide⟩

/-- A leaf has a last part that does not lead back. -/
theorem IsLeaf.parts {path : Path}
    (h : IsLeaf directory path) :
    ∃ front last, path.parts = front ++ [last] ∧ last ≠ ".." := by
  obtain ⟨segments, last, rfl, -, -, hlast⟩ := h
  refine ⟨directory.parts ++ segments, last, ?_, hlast⟩
  rw [Path.join_relative, List.append_assoc]

/-- The places on the way to a leaf are those on the way to the directory and some below it. -/
theorem mem_wayTo_iff {segments : List String} {last : String} {place : Place}
    (s : Store) (directory : Path) :
    place ∈ s.wayTo (directory.join ⟨.current, segments ++ [last]⟩) ↔
      place ∈ Store.trail (s.startOf directory) directory.parts ∨
        place ∈ Store.trail (s.resolve directory) segments := by
  have hparts : (directory.join ⟨.current, segments ++ [last]⟩).parts.dropLast =
      directory.parts ++ segments := by
    rw [Path.join_relative, ← List.append_assoc, List.dropLast_concat]
  rw [Store.wayTo, hparts, Store.mem_trail_append_iff]
  rfl

/-- A leaf that is not on its own way is on the way to no other leaf. -/
theorem IsLeaf.not_mem_wayTo {path other : Path}
    (hpath : IsLeaf directory path)
    (hother : IsLeaf directory other)
    (h : s.resolve path ∉ s.wayTo path) :
    s.resolve path ∉ s.wayTo other := by
  obtain ⟨segments, last, rfl, hsegments, hdot, hlast⟩ := hpath
  obtain ⟨segments', last', rfl, hsegments', -, -⟩ := hother
  have downwards : ∀ {segments : List String}, (∀ segment ∈ segments, '.' ∉ segment.toList) →
      ".." ∉ segments := fun hsegments hmem => hsegments ".." hmem (by decide)
  have hdots : ".." ∉ segments ++ [last] := by
    simp [downwards hsegments, Ne.symm hlast]
  rw [mem_wayTo_iff, not_or] at h
  rw [mem_wayTo_iff, not_or]
  refine ⟨h.1, fun hmem => ?_⟩
  obtain ⟨front, hfront, hplace⟩ := Store.exists_of_mem_trail (downwards hsegments') hmem
  rw [s.resolve_join directory hdots] at hplace
  obtain rfl := List.append_cancel_left hplace
  exact hsegments' last (hfront.subset (by simp)) hdot

/-- A tree in which the same leaves can be written as in another one. -/
structure Settled (directory : Path) (s t : Store) : Prop where
  tree : t.IsTree
  free : ∀ path, IsLeaf directory path → (t.Free path ↔ s.Free path)

theorem Settled.refl
    (directory : Path)
    (h : s.IsTree) :
    Settled directory s s :=
  ⟨h, fun _ _ => Iff.rfl⟩

/-- The leaves that can be written stay the same over several steps. -/
theorem Settled.trans {u : Store}
    (hst : Settled directory s t)
    (htu : Settled directory t u) :
    Settled directory s u :=
  ⟨htu.tree, fun path hpath => (htu.free path hpath).trans (hst.free path hpath)⟩

/-- Writing one leaf takes no room from the others. -/
theorem Settled.writeDeep {path : Path}
    (h : s.IsTree)
    (hpath : IsLeaf directory path)
    (hfree : s.Free path) (content : Content) :
    Settled directory s (s.writeDeep path content).1 := by
  obtain ⟨front, last, hparts, hlast⟩ := hpath.parts
  refine ⟨h.writeDeep hparts hlast hfree content, fun other hother => ?_⟩
  have hcurrent := s.current_writeDeep path content
  have hclear := hpath.not_mem_wayTo hother hfree.vacant.2
  have hiff : s.resolve other ∉ s.wayTo other →
      ((s.writeDeep path content).1.Free other ↔ s.Free other) := fun hvacant =>
    Store.free_writeDeep_iff h hparts hfree content hclear (hother.not_mem_wayTo hpath hvacant)
  refine ⟨fun hfree' => (hiff ?_).1 hfree', fun hfree' => (hiff hfree'.vacant.2).2 hfree'⟩
  have hvacant := hfree'.vacant.2
  rwa [Store.resolve_congr hcurrent, Store.wayTo_congr hcurrent] at hvacant

end Room

section Runs

variable {all : Written}

/-- A file that has a text and can be written is written, and the others follow. -/
theorem result_writeAll_cons {r : ExportResult} {F : Source.File} {text : String}
    (s : Store) (written : Written) (rest : List ExportResult)
    (hfile : r.file = some F)
    (htext : F.text = .ok text)
    (hdeep : (s.writeDeep (pathOf directory F) (.text text)).2 = .ok ()) :
    (writeAll directory s written (r :: rest)).result =
      (writeAll directory (s.writeDeep (pathOf directory F) (.text text)).1
        (written.put (pathOf directory F) r.sources) rest).result := by
  have hpair : s.writeDeep (pathOf directory F) (.text text) =
      ((s.writeDeep (pathOf directory F) (.text text)).1, .ok ()) := Prod.ext rfl hdeep
  rw [writeAll, hfile]
  simp only [htext]
  rw [hpair]

/-- A run that succeeds has written its first file. -/
theorem exists_text_of_result {r : ExportResult} {F : Source.File} {rest : List ExportResult}
    (s : Store) (written : Written)
    (hfile : r.file = some F)
    (hall : (writeAll directory s written (r :: rest)).result = .ok all) :
    ∃ text, F.text = .ok text ∧ (s.writeDeep (pathOf directory F) (.text text)).2 = .ok () ∧
      (writeAll directory (s.writeDeep (pathOf directory F) (.text text)).1
        (written.put (pathOf directory F) r.sources) rest).result = .ok all ∧
      (writeAll directory s written (r :: rest)).store =
        (writeAll directory (s.writeDeep (pathOf directory F) (.text text)).1
          (written.put (pathOf directory F) r.sources) rest).store := by
  rcases writeAll_cons_some directory s written rest hfile with
    ⟨content, e, herror, -⟩ | ⟨text, htext, hdeep, hresult, hstore⟩
  · simp [hall] at herror
  · exact ⟨text, htext, hdeep, hresult ▸ hall, hstore⟩

/-- The files of the results have texts and can be written. -/
def AreWritable (directory : Path) (s : Store) (results : List ExportResult) : Prop :=
  ∀ r ∈ results, ∀ F, r.file = some F →
    (∃ text, F.text = .ok text) ∧ s.Free (pathOf directory F)

/-- Whether results can be written does not change while they are being written. -/
theorem areWritable_congr
    (hnamed : AreNamed results)
    (h : Settled directory s t) :
    AreWritable directory t results ↔ AreWritable directory s results := by
  refine forall₂_congr fun r hr => forall₂_congr fun F hfile => ?_
  rw [h.free _ (isLeaf_pathOf directory (hnamed r hr F hfile))]

/-- All results are written exactly if each of them can be. -/
theorem writeAll_isOk_iff
    (h : s.IsTree)
    (hnamed : AreNamed results) (written : Written) :
    (∃ all, (writeAll directory s written results).result = .ok all) ↔
      AreWritable directory s results := by
  induction results generalizing s written with
  | nil => simp [writeAll, AreWritable]
  | cons r rest ih =>
      obtain ⟨hr, hrest⟩ := List.forall_mem_cons.1 hnamed
      rw [AreWritable, List.forall_mem_cons]
      cases hfile : r.file with
      | none =>
          rw [writeAll_cons_none s written hfile, ih h hrest]
          simp [AreWritable]
      | some F =>
          have hleaf := isLeaf_pathOf directory (hr F hfile)
          obtain ⟨front, last, hparts, -⟩ := hleaf.parts
          simp only [Option.some.injEq, forall_eq']
          constructor
          · rintro ⟨all, hall⟩
            obtain ⟨text, htext, hdeep, hlater, -⟩ := exists_text_of_result s written hfile hall
            have hfree := (Store.writeDeep_eq_ok_iff h hparts _).1 hdeep
            have hsettled := Settled.writeDeep h hleaf hfree (.text text)
            refine ⟨⟨⟨text, htext⟩, hfree⟩, (areWritable_congr hrest hsettled).1 ?_⟩
            exact (ih hsettled.tree hrest _).1 ⟨all, hlater⟩
          · rintro ⟨⟨⟨text, htext⟩, hfree⟩, hlater⟩
            have hsettled := Settled.writeDeep h hleaf hfree (.text text)
            rw [result_writeAll_cons s written rest hfile htext
              ((Store.writeDeep_eq_ok_iff h hparts _).2 hfree)]
            exact (ih hsettled.tree hrest _).2 ((areWritable_congr hrest hsettled).2 hlater)

/-- Writing the results leaves the directory settled. -/
theorem settled_writeAll
    (h : s.IsTree)
    (hnamed : AreNamed results) (written : Written)
    (hall : (writeAll directory s written results).result = .ok all) :
    Settled directory s (writeAll directory s written results).store := by
  induction results generalizing s written with
  | nil => exact .refl directory h
  | cons r rest ih =>
      obtain ⟨hr, hrest⟩ := List.forall_mem_cons.1 hnamed
      cases hfile : r.file with
      | none =>
          rw [writeAll_cons_none s written hfile] at hall ⊢
          exact ih h hrest written hall
      | some F =>
          have hleaf := isLeaf_pathOf directory (hr F hfile)
          obtain ⟨front, last, hparts, -⟩ := hleaf.parts
          obtain ⟨text, -, hdeep, hlater, hstore⟩ := exists_text_of_result s written hfile hall
          have hfree := (Store.writeDeep_eq_ok_iff h hparts _).1 hdeep
          have hsettled := Settled.writeDeep h hleaf hfree (.text text)
          rw [hstore]
          exact hsettled.trans (ih hsettled.tree hrest _ hlater)

/-- What is recorded about other paths is kept. -/
theorem get?_writeAll_of_not_mem {path : Path}
    (s : Store) (written : Written)
    (hall : (writeAll directory s written results).result = .ok all)
    (hpath : path ∉ paths directory results) :
    all.get? path = written.get? path := by
  induction results generalizing s written with
  | nil => rw [Except.ok.inj hall]
  | cons r rest ih =>
      cases hfile : r.file with
      | none =>
          rw [writeAll_cons_none s written hfile] at hall
          exact ih s written hall (paths_cons_none hfile ▸ hpath)
      | some F =>
          rw [paths_cons_some hfile] at hpath
          obtain ⟨hne, hrest⟩ := List.ne_and_not_mem_of_not_mem_cons hpath
          obtain ⟨text, -, -, hlater, -⟩ := exists_text_of_result s written hfile hall
          rw [ih _ _ hlater hrest, Dictionary.get?_put_of_ne _ _ hne]

/-- The sources of the last result with a path are recorded. -/
theorem get?_writeAll {r : ExportResult} {F : Source.File} {later : List ExportResult}
    (s : Store) (written : Written) (earlier : List ExportResult)
    (hall : (writeAll directory s written (earlier ++ r :: later)).result = .ok all)
    (hfile : r.file = some F)
    (hlast : pathOf directory F ∉ paths directory later) :
    all.get? (pathOf directory F) = some r.sources := by
  obtain ⟨t, known, -, hresult, -⟩ := writeAll_append s written earlier _ hall
  obtain ⟨text, -, -, hlater, -⟩ := exists_text_of_result t known hfile hresult
  rw [get?_writeAll_of_not_mem _ _ hlater hlast, Dictionary.get?_put_self]

/-- What comes for the first time, in its order. -/
theorem foldl_new_eq_append {α : Type} [DecidableEq α] (l known : List α) :
    l.foldl (fun known x => if x ∈ known then known else known ++ [x]) known =
      known ++ (l.filter (· ∉ known)).eraseDups := by
  induction l generalizing known with
  | nil => simp
  | cons a l ih =>
      rw [List.foldl_cons, ih]
      by_cases ha : a ∈ known
      · simp [ha]
      · simp only [ha, if_false, List.filter_cons, not_false_eq_true, decide_true, if_true,
          List.eraseDups_cons, List.filter_filter, List.append_assoc, List.singleton_append]
        congr 3
        refine List.filter_congr fun b _ => ?_
        simp [List.mem_append, and_comm, beq_eq_decide]

/-- The files written are those of the results, each once and in order. -/
theorem keys_write {written : Written}
    (h : (write directory s results).result = .ok written) :
    written.keys = (paths directory results).eraseDups := by
  rw [keys_writeAll directory s [] written results h, foldl_new_eq_append]
  simp [Dictionary.keys]

end Runs

section Manifest

variable {written : Written}

/-- The entry of a file in the manifest: its path from the directory on, and its sources. -/
def listing (directory : Path) (entry : Path × List Location) : String × List String :=
  (manifestKey directory entry.1, entry.2.map Location.text)

theorem manifestEntry_join (directory : Path) (parts : List String) (sources : List Location) :
    manifestEntry directory (directory.join ⟨.current, parts⟩, sources) =
      .ok (listing directory (directory.join ⟨.current, parts⟩, sources)) := by
  have hrelative : (directory.join ⟨.current, parts⟩).relativeTo? directory = some parts :=
    Path.relativeTo?_eq_some_iff.2 (Path.join_relative directory parts)
  rw [manifestEntry, hrelative, listing, manifestKey_join]

/-- Every file that was written is below the directory, so all of them are listed. -/
theorem mapM_manifestEntry
    (hplain : ArePlain results)
    (hwrite : (write directory s results).result = .ok written) :
    written.mapM (manifestEntry directory) = .ok (written.map (listing directory)) := by
  have hbelow : ∀ entry ∈ written, ∃ parts, entry.1 = directory.join ⟨.current, parts⟩ := by
    intro entry hentry
    have hkey : entry.1 ∈ written.keys := List.mem_map_of_mem hentry
    obtain ⟨parts, -, hparts⟩ := exists_fileParts hplain ((mem_keys_write_iff hwrite).1 hkey)
    exact ⟨parts, hparts⟩
  refine Outcome.mapM_eq_ok_iff.2 ?_
  rw [List.forall₂_map_right_iff, List.forall₂_same]
  rintro ⟨path, sources⟩ hentry
  obtain ⟨parts, hparts⟩ := hbelow _ hentry
  obtain rfl : path = _ := hparts
  exact manifestEntry_join directory parts sources

/-- The manifest lists the files written with their sources. -/
theorem writeManifest_eq
    (hplain : ArePlain results)
    (hwrite : (write directory s results).result = .ok written) (t : Store) :
    (writeManifest directory t written).2 =
      (t.writeDeep (manifestPath directory)
        (.text (Manifest.render (written.map (listing directory))))).2.mapError .file := by
  rw [writeManifest, mapM_manifestEntry hplain hwrite]

/-- The manifest lists no file twice. -/
theorem nodup_listing
    (hplain : ArePlain results)
    (hwrite : (write directory s results).result = .ok written) :
    ((written.map (listing directory)).map Prod.fst).Nodup :=
  (keys_of_manifest hplain hwrite (mapM_manifestEntry hplain hwrite)).1

/-- The manifest can be written exactly if there is room for it in the tree of the start. -/
theorem writeManifest_isOk_iff
    (h : s.IsTree)
    (hnamed : AreNamed results)
    (hwrite : (write directory s results).result = .ok written) :
    (writeManifest directory (write directory s results).store written).2 = .ok () ↔
      s.Free (manifestPath directory) := by
  have hleaf := isLeaf_manifestPath directory
  obtain ⟨front, last, hparts, -⟩ := hleaf.parts
  have hsettled : Settled directory s (write directory s results).store :=
    settled_writeAll h hnamed [] hwrite
  rw [writeManifest_eq (arePlain_of_areNamed hnamed) hwrite, Outcome.mapError_eq_ok_iff,
    Store.writeDeep_eq_ok_iff hsettled.tree hparts, hsettled.free _ hleaf]

end Manifest

section Agreement

/-- The result is the last one whose file has its package and its name. -/
structure IsLast (results : List ExportResult) (r : ExportResult) (F : Source.File) : Prop where
  file : r.file = some F
  last : ∃ earlier later, results = earlier ++ r :: later ∧
    ∀ q ∈ later, ∀ G, q.file = some G → ¬ (G.package = F.package ∧ G.name = F.name)

/-- The files on disk, what is recorded about them and the manifest agree. -/
structure Agreement (directory : Path) (s : Store) (results : List ExportResult)
    (written : Written) : Prop where
  /-- The paths of the results are recorded, each where it came first. -/
  keys : written.keys = (paths directory results).eraseDups
  /-- The sources that are recorded and the text on disk are those of the last result with the
  package and the name, and the manifest does not change that. -/
  last : ∀ r F, IsLast results r F →
    written.get? (pathOf directory F) = some r.sources ∧
      ∃ text, F.text = .ok text ∧
        (write directory s results).store.fileBelow? directory (partsFor F.package F.name) =
          some (.text text) ∧
        (finish directory s results written).fileBelow? directory (partsFor F.package F.name) =
          some (.text text)
  /-- No two files are listed under one name. -/
  distinct : ((written.map (listing directory)).map Prod.fst).Nodup
  /-- A manifest that is written lists what is recorded, and its text says nothing else. -/
  manifest : (writeManifest directory (write directory s results).store written).2 = .ok () →
    ∃ text, (finish directory s results written).fileBelow? directory [manifestName] =
        some (.text text) ∧
      text = Manifest.render (written.map (listing directory)) ∧
      ∀ entries, text = Manifest.render entries →
        entries.Perm (written.map (listing directory))

/-- What is promised about writing the files of results. -/
structure WriteContract (directory : Path) (s : Store) (results : List ExportResult) : Prop where
  /-- A file lies below the directory, and is listed by the parts that lead there. -/
  path : ∀ r ∈ results, ∀ F, r.file = some F →
    pathOf directory F = directory.join ⟨.current, partsFor F.package F.name⟩ ∧
      manifestKey directory (pathOf directory F) = "/".intercalate (partsFor F.package F.name)
  /-- Two results share a path exactly if they have the same package and the same name. -/
  shared : ∀ r ∈ results, ∀ q ∈ results, ∀ F G, r.file = some F → q.file = some G →
    (pathOf directory F = pathOf directory G ↔ F.package = G.package ∧ F.name = G.name)
  /-- Every path is that of a last result. -/
  covered : ∀ p ∈ paths directory results, ∃ r F, IsLast results r F ∧ pathOf directory F = p
  /-- In a proper tree, the files are written exactly if each has a text and can be written. -/
  returns : s.IsTree →
    ((∃ written, (write directory s results).result = .ok written) ↔
      AreWritable directory s results)
  /-- Then the manifest is written exactly if it can be. -/
  lists : s.IsTree → ∀ written, (write directory s results).result = .ok written →
    ((writeManifest directory (write directory s results).store written).2 = .ok () ↔
      s.Free (manifestPath directory))
  agreement : ∀ written, (write directory s results).result = .ok written →
    Agreement directory s results written

variable {written : Written} {r : ExportResult} {F : Source.File}

theorem not_mem_paths_iff {later : List ExportResult}
    (directory : Path)
    (hF : F.IsNamed)
    (hlater : AreNamed later) :
    pathOf directory F ∉ paths directory later ↔
      ∀ q ∈ later, ∀ G, q.file = some G → ¬ (G.package = F.package ∧ G.name = F.name) := by
  constructor
  · intro hnot q hq G hG hsame
    have hpath := (pathOf_eq_iff directory (hlater q hq G hG) hF).2 hsame
    exact hnot (mem_paths_iff.2 ⟨q, hq, G, hG, hpath⟩)
  · intro hlast hmem
    obtain ⟨q, hq, G, hG, hpath⟩ := mem_paths_iff.1 hmem
    exact hlast q hq G hG ((pathOf_eq_iff directory (hlater q hq G hG) hF).1 hpath)

theorem exists_isLast {p : Path}
    (hnamed : AreNamed results)
    (hp : p ∈ paths directory results) :
    ∃ r F, IsLast results r F ∧ pathOf directory F = p := by
  induction results with
  | nil => simp [paths] at hp
  | cons q rest ih =>
      obtain ⟨hq, hrest⟩ := List.forall_mem_cons.1 hnamed
      by_cases hlater : p ∈ paths directory rest
      · obtain ⟨r, F, ⟨hfile, earlier, later, rfl, hlast⟩, hpath⟩ := ih hrest hlater
        exact ⟨r, F, ⟨hfile, q :: earlier, later, rfl, hlast⟩, hpath⟩
      · cases hfile : q.file with
        | none => exact absurd (paths_cons_none hfile ▸ hp) hlater
        | some F =>
            rw [paths_cons_some hfile] at hp
            obtain rfl := (List.mem_cons.1 hp).resolve_right hlater
            exact ⟨q, F, ⟨hfile, [], rest, rfl,
              (not_mem_paths_iff directory (hq F hfile) hrest).1 hlater⟩, rfl⟩

/-- What is written agrees with the results. -/
theorem agreement_of_write
    (hnamed : AreNamed results)
    (hwrite : (write directory s results).result = .ok written) :
    Agreement directory s results written where
  keys := keys_write hwrite
  last := by
    rintro r F ⟨hfile, earlier, later, rfl, hlast⟩
    have hF := hnamed r (by simp) F hfile
    have hlater : AreNamed later := fun q hq => hnamed q (by simp [hq])
    have hnot := (not_mem_paths_iff directory hF hlater).2 hlast
    have hplain := arePlain_of_areNamed hnamed
    obtain ⟨text, htext, hfinish⟩ := last_text_finish hplain hwrite hfile hnot
      (pathOf_of_isNamed directory hF)
    refine ⟨get?_writeAll s [] earlier hwrite hfile hnot, text, htext, ?_, hfinish⟩
    rw [fileBelow?_finish_of_ne _ _ _ (isFileParts_partsFor hF.package hF.name).notManifest]
      at hfinish
    rw [Store.fileBelow?, Store.resolve_congr (current_write ..)]
    exact hfinish
  distinct := nodup_listing (arePlain_of_areNamed hnamed) hwrite
  manifest := by
    intro hmanifest
    obtain ⟨entries, hentries, hfile⟩ := fileBelow?_finish_manifest hmanifest
    rw [mapM_manifestEntry (arePlain_of_areNamed hnamed) hwrite] at hentries
    obtain rfl := Except.ok.inj hentries
    exact ⟨_, hfile, rfl, fun others hothers => (Manifest.perm_of_render hothers).symm⟩

/-- The results are written exactly if each of them can be; the files then hold the texts, and the
manifest the sources, of the last result for each file. -/
theorem written_files_and_manifest_agree
    (directory : Path) (s : Store) (results : List ExportResult)
    (hnamed : AreNamed results) :
    WriteContract directory s results where
  path := by
    intro r hr F hfile
    have hpath := pathOf_of_isNamed directory (hnamed r hr F hfile)
    exact ⟨hpath, by rw [hpath, manifestKey_join]⟩
  shared := by
    intro r hr q hq F G hF hG
    exact pathOf_eq_iff directory (hnamed r hr F hF) (hnamed q hq G hG)
  covered := fun p hp => exists_isLast hnamed hp
  returns := fun htree => writeAll_isOk_iff htree hnamed []
  lists := fun htree written hwrite => writeManifest_isOk_iff htree hnamed hwrite
  agreement := fun written hwrite => agreement_of_write hnamed hwrite

/-- Two results for one file, with another file between them. -/
def rebuilt : List ExportResult :=
  [{ file := some { package := "app.js", name := "Box" }, sources := [⟨"Box.kt", some 3⟩] },
    { file := some { name := "Main" }, sources := [⟨"Main.kt", none⟩] },
    { file := none },
    { file := some { package := "app.js", name := "Box" }, sources := [⟨"Lid.kt", some 5⟩] }]

theorem areNamed_rebuilt : AreNamed rebuilt := by
  intro r hr F hfile
  simp only [rebuilt, List.mem_cons, List.not_mem_nil, or_false] at hr
  rcases hr with rfl | rfl | rfl | rfl <;> cases hfile <;>
    exact ⟨by decide, by decide, by decide⟩

theorem areWritable_rebuilt :
    AreWritable ⟨.current, ["out"]⟩ (Store.empty ["w"]) rebuilt := by
  intro r hr F hfile
  simp only [rebuilt, List.mem_cons, List.not_mem_nil, or_false] at hr
  rcases hr with rfl | rfl | rfl | rfl <;> cases hfile <;>
    exact ⟨⟨_, rfl⟩, by decide⟩

theorem written_files_and_manifest_agree_of_rebuilt :
    AreNamed rebuilt ∧
      ∃ written, (write ⟨.current, ["out"]⟩ (Store.empty ["w"]) rebuilt).result = .ok written ∧
        written.keys =
          [⟨.current, ["out", "app", "js", "Box.kt"]⟩, ⟨.current, ["out", "Main.kt"]⟩] ∧
        written.get? ⟨.current, ["out", "app", "js", "Box.kt"]⟩ = some [⟨"Lid.kt", some 5⟩] ∧
        (writeManifest ⟨.current, ["out"]⟩
          (write ⟨.current, ["out"]⟩ (Store.empty ["w"]) rebuilt).store written).2 = .ok () := by
  have hcontract := written_files_and_manifest_agree ⟨.current, ["out"]⟩ (Store.empty ["w"]) rebuilt
    areNamed_rebuilt
  have htree := Store.isTree_empty ["w"]
  obtain ⟨written, hwrite⟩ := (hcontract.returns htree).2 areWritable_rebuilt
  have hagreement := hcontract.agreement written hwrite
  refine ⟨areNamed_rebuilt, written, hwrite, ?_, ?_, ?_⟩
  · rw [hagreement.keys]
    decide
  · exact (hagreement.last _ _ ⟨rfl, rebuilt.take 3, [], rfl, by simp⟩).1
  · exact (hcontract.lists htree written hwrite).2 (by decide)

theorem utf8ByteSize_replicate (n : Nat) :
    (String.ofList (List.replicate n 'a')).utf8ByteSize = n := by
  induction n with
  | zero => rfl
  | succ n ih =>
      rw [List.replicate_succ, String.ofList_cons, String.utf8ByteSize_append, ih,
        String.utf8ByteSize_singleton]
      have hsize : 'a'.utf8Size = 1 := by decide
      omega

/-- A file whose name has 253 letters. -/
def longNamed : Source.File where
  package := "app.js"
  name := String.ofList (List.replicate 253 'a')

theorem isNamed_longNamed : longNamed.IsNamed where
  segments := by decide
  package := by decide
  name := by
    rw [longNamed, String.toList_ofList]
    exact fun h => absurd (List.eq_of_mem_replicate h) (by decide)

theorem utf8ByteSize_longNamed : longNamed.name.utf8ByteSize = 253 :=
  utf8ByteSize_replicate 253

/-- With its ending the name has 256 bytes, one more than the name of a file may have. -/
theorem isLongPart_longNamed :
    Path.isLongPart (longNamed.name ++ ".kt") = true := by
  rw [Path.isLongPart, String.utf8ByteSize_append, utf8ByteSize_longNamed]
  decide

/-- A file can be named as it should be, and have a text, and still not be written. -/
theorem exists_unwritable_name :
    ∃ (directory : Path) (s : Store) (results : List ExportResult),
      s.IsTree ∧ AreNamed results ∧
        (∀ r ∈ results, ∀ F, r.file = some F → F.name ≠ "" ∧ ∃ text, F.text = .ok text) ∧
        ∃ e, (write directory s results).result = .error e := by
  have hnamed : AreNamed [{ file := some longNamed }] := by
    intro r hr F hfile
    obtain rfl := List.mem_singleton.1 hr
    cases hfile
    exact isNamed_longNamed
  have htree := Store.isTree_empty ["w"]
  refine ⟨⟨.current, ["out"]⟩, Store.empty ["w"], [{ file := some longNamed }], htree, hnamed,
    ?_, ?_⟩
  · intro r hr F hfile
    obtain rfl := List.mem_singleton.1 hr
    cases hfile
    refine ⟨fun hempty => ?_, _, rfl⟩
    have hsize := utf8ByteSize_longNamed
    simp [hempty] at hsize
  · cases hresult : (write ⟨.current, ["out"]⟩ (Store.empty ["w"])
        [{ file := some longNamed }]).result with
    | error e => exact ⟨e, rfl⟩
    | ok written =>
        have hwritable := (writeAll_isOk_iff htree hnamed []).1 ⟨written, hresult⟩
        have hfree := (hwritable _ (List.mem_singleton_self _) longNamed rfl).2
        rw [pathOf_of_isNamed _ isNamed_longNamed, Path.join_relative] at hfree
        have hshort := hfree.shortParts (longNamed.name ++ ".kt") (by simp [partsFor])
        simp [isLongPart_longNamed] at hshort

end Agreement

end Output
end Facade
