import Facade.Generation
import Facade.Proofs.DiscoveryAccount
import Facade.Proofs.ManifestText
import Facade.Proofs.OutputPaths

/-!
# A run leaves the output directory alone or makes it exact

**Input.**  A tree of files, the virtual machine, and what to generate from which inputs.

**Algorithm.**  Nothing is written before the directory was checked, the declarations were found and
the session has ended.  Then the output directory is cleared, unless this is not wanted, the files
are written one after the other, and the manifest is written last.

**Results.**
* `fileAt?_writeAll_of_not_mem`: writing the files of a session, even without success, leaves every
  other file alone.
* `text_writeAll`: of the files with one path the last one stays.
* `isExact_finish`: after the directory was cleared, it holds the files of the session and the
  manifest, and no other file.
* `output_is_untouched_or_exact`: what a run does to the files below the output directory.
-/

namespace Facade

/-- The content of the file that parts lead to from a directory. -/
def Store.fileBelow? (s : Store) (directory : Path) (parts : List String) : Option Content :=
  s.fileAt? (s.resolve directory ++ parts)

namespace Output

variable {directory : Path} {s : Store} {results : List ExportResult}

section Files

/-- The paths to write are those of the files among the results. -/
theorem mem_paths_iff {p : Path} :
    p ∈ paths directory results ↔
      ∃ r ∈ results, ∃ F, r.file = some F ∧ pathOf directory F = p := by
  simp [paths]

theorem paths_cons_none {r : ExportResult}
    (h : r.file = none) :
    paths directory (r :: results) = paths directory results := by
  simp [paths, h]

theorem paths_cons_some {r : ExportResult} {F : Source.File}
    (h : r.file = some F) :
    paths directory (r :: results) = pathOf directory F :: paths directory results := by
  simp [paths, h]

theorem writeAll_cons_none {r : ExportResult} {rest : List ExportResult}
    (s : Store) (written : Written)
    (h : r.file = none) :
    writeAll directory s written (r :: rest) = writeAll directory s written rest := by
  rw [writeAll, h]

/-- A file is written and the others follow, or its place is the last that was written to. -/
theorem writeAll_cons_some {r : ExportResult} {F : Source.File}
    (directory : Path) (s : Store) (written : Written) (rest : List ExportResult)
    (h : r.file = some F) :
    (∃ content e, (writeAll directory s written (r :: rest)).result = .error e ∧
        (writeAll directory s written (r :: rest)).store =
          (s.writeDeep (pathOf directory F) content).1) ∨
      ∃ text, F.text = .ok text ∧ (s.writeDeep (pathOf directory F) (.text text)).2 = .ok () ∧
        (writeAll directory s written (r :: rest)).result =
          (writeAll directory (s.writeDeep (pathOf directory F) (.text text)).1
            (written.put (pathOf directory F) r.sources) rest).result ∧
        (writeAll directory s written (r :: rest)).store =
          (writeAll directory (s.writeDeep (pathOf directory F) (.text text)).1
            (written.put (pathOf directory F) r.sources) rest).store := by
  rw [writeAll, h]
  dsimp only
  split
  · next cause _ =>
      left
      rw [leaveEmpty]
      split
      · next next e hdeep => exact ⟨.text "", _, rfl, by rw [hdeep]⟩
      · next next hdeep => exact ⟨.text "", _, rfl, by rw [hdeep]⟩
  · next text htext =>
      split
      · next next e hdeep => exact .inl ⟨.text text, _, rfl, by rw [hdeep]⟩
      · next next hdeep => exact .inr ⟨text, htext, by rw [hdeep], by rw [hdeep], by rw [hdeep]⟩

theorem current_writeAll (directory : Path) (s : Store) (written : Written)
    (results : List ExportResult) :
    (writeAll directory s written results).store.current = s.current := by
  induction results generalizing s written with
  | nil => rfl
  | cons r rest ih =>
      cases hfile : r.file with
      | none => rw [writeAll_cons_none s written hfile, ih]
      | some F =>
          rcases writeAll_cons_some directory s written rest hfile with
            ⟨content, e, -, hstore⟩ | ⟨text, -, -, -, hstore⟩
          · rw [hstore, Store.current_writeDeep]
          · rw [hstore, ih, Store.current_writeDeep]

/-- Files at other places are left alone. -/
theorem fileAt?_writeAll_of_not_mem {place : Place}
    (s : Store) (written : Written)
    (hplace : ∀ p ∈ paths directory results, place ≠ s.resolve p) :
    (writeAll directory s written results).store.fileAt? place = s.fileAt? place := by
  induction results generalizing s written with
  | nil => rfl
  | cons r rest ih =>
      cases hfile : r.file with
      | none =>
          rw [paths_cons_none hfile] at hplace
          rw [writeAll_cons_none s written hfile, ih s written hplace]
      | some F =>
          rw [paths_cons_some hfile] at hplace
          have hself := hplace _ List.mem_cons_self
          rcases writeAll_cons_some directory s written rest hfile with
            ⟨content, e, -, hstore⟩ | ⟨text, -, -, -, hstore⟩
          · rw [hstore, s.fileAt?_writeDeep_of_ne content hself]
          · rw [hstore, ih _ _ ?_, s.fileAt?_writeDeep_of_ne _ hself]
            intro p hp
            rw [Store.resolve_congr (s.current_writeDeep _ _)]
            exact hplace p (List.mem_cons_of_mem _ hp)

/-- A run that succeeds goes on with its later results from the tree that the earlier ones leave. -/
theorem writeAll_append {all : Written}
    (s : Store) (written : Written) (earlier later : List ExportResult)
    (hok : (writeAll directory s written (earlier ++ later)).result = .ok all) :
    ∃ t known, t.current = s.current ∧
      (writeAll directory t known later).result = .ok all ∧
      (writeAll directory s written (earlier ++ later)).store =
        (writeAll directory t known later).store := by
  induction earlier generalizing s written with
  | nil => exact ⟨s, written, rfl, hok, rfl⟩
  | cons r earlier ih =>
      rw [List.cons_append] at hok ⊢
      cases hfile : r.file with
      | none =>
          rw [writeAll_cons_none s written hfile] at hok ⊢
          exact ih s written hok
      | some F =>
          rcases writeAll_cons_some directory s written (earlier ++ later) hfile with
            ⟨content, e, herror, -⟩ | ⟨text, -, -, hresult, hstore⟩
          · rw [herror] at hok
            simp at hok
          · rw [hresult] at hok
            obtain ⟨t, known, hcurrent, hlater⟩ := ih _ _ hok
            rw [hstore]
            exact ⟨t, known, hcurrent.trans (s.current_writeDeep _ _), hlater⟩

/-- Of the files with one path the last one stays. -/
theorem text_writeAll {r : ExportResult} {later : List ExportResult} {F : Source.File}
    {all : Written}
    (s : Store) (written : Written) (earlier : List ExportResult)
    (hok : (writeAll directory s written (earlier ++ r :: later)).result = .ok all)
    (hfile : r.file = some F)
    (hlast : ∀ p ∈ paths directory later, s.resolve (pathOf directory F) ≠ s.resolve p) :
    ∃ text, F.text = .ok text ∧
      (writeAll directory s written (earlier ++ r :: later)).store.fileAt?
        (s.resolve (pathOf directory F)) = some (.text text) := by
  obtain ⟨t, known, hcurrent, hresult, hstore⟩ := writeAll_append s written earlier _ hok
  rw [hstore, ← Store.resolve_congr hcurrent]
  rcases writeAll_cons_some directory t known later hfile with
    ⟨content, e, herror, -⟩ | ⟨text, htext, hdeep, -, hrest⟩
  · rw [herror] at hresult
    simp at hresult
  · refine ⟨text, htext, ?_⟩
    rw [hrest, fileAt?_writeAll_of_not_mem, Store.fileAt?_writeDeep_self hdeep]
    intro p hp
    rw [Store.resolve_congr (t.current_writeDeep _ _), Store.resolve_congr hcurrent,
      Store.resolve_congr hcurrent]
    exact hlast p hp

/-- If some path of the results leads to a place, there is a last one that does. -/
theorem exists_last {place : Place}
    (s : Store)
    (h : ∃ p ∈ paths directory results, s.resolve p = place) :
    ∃ earlier r later F, results = earlier ++ r :: later ∧ r.file = some F ∧
      s.resolve (pathOf directory F) = place ∧
      ∀ q ∈ paths directory later, place ≠ s.resolve q := by
  induction results with
  | nil => simp [paths] at h
  | cons r rest ih =>
      by_cases hrest : ∃ p ∈ paths directory rest, s.resolve p = place
      · obtain ⟨earlier, q, later, F, rfl, hlast⟩ := ih hrest
        exact ⟨r :: earlier, q, later, F, rfl, hlast⟩
      · obtain ⟨p, hp, hplace⟩ := h
        cases hfile : r.file with
        | none =>
            rw [paths_cons_none hfile] at hp
            exact absurd ⟨p, hp, hplace⟩ hrest
        | some F =>
            rw [paths_cons_some hfile] at hp
            rcases List.mem_cons.1 hp with rfl | hp
            · exact ⟨[], r, rest, F, rfl, hfile, hplace, fun q hq e => hrest ⟨q, hq, e.symm⟩⟩
            · exact absurd ⟨p, hp, hplace⟩ hrest

end Files

section Manifest

/-- The key of a file in the manifest. -/
def manifestKey (directory p : Path) : String :=
  "/".intercalate ((p.relativeTo? directory).getD [])

/-- The manifest lists the files written, each by its path below the directory. -/
theorem keys_of_entries {written : Written} {entries : List (String × List String)}
    (h : written.mapM (manifestEntry directory) = .ok entries) :
    entries.map Prod.fst = written.keys.map (manifestKey directory) := by
  have hforall := Outcome.mapM_eq_ok_iff.1 h
  clear h
  induction hforall with
  | nil => rfl
  | @cons entry row written entries hrow _ ih =>
      have hkey : row.1 = manifestKey directory entry.1 := by
        rw [manifestEntry] at hrow
        split at hrow
        · next parts hparts =>
            obtain rfl := Except.ok.inj hrow
            simp [manifestKey, hparts]
        · simp at hrow
      rw [List.map_cons, ih, hkey]
      rfl

/-- Where the manifest is written, the store has changed by that file only. -/
theorem writeManifest_eq_ok {written : Written}
    (h : (writeManifest directory s written).2 = .ok ()) :
    ∃ entries, written.mapM (manifestEntry directory) = .ok entries ∧
      (s.writeDeep (manifestPath directory) (.text (Manifest.render entries))).2 = .ok () ∧
      (writeManifest directory s written).1 =
        (s.writeDeep (manifestPath directory) (.text (Manifest.render entries))).1 := by
  rw [writeManifest] at h ⊢
  split at h
  · simp at h
  · next entries hentries =>
      rw [hentries]
      exact ⟨entries, rfl, Outcome.mapError_eq_ok_iff.1 h, rfl⟩

/-- The manifest is the only file that its writing changes. -/
theorem fileAt?_writeManifest_of_ne {place : Place}
    (s : Store) (written : Written)
    (h : place ≠ s.resolve (manifestPath directory)) :
    (writeManifest directory s written).1.fileAt? place = s.fileAt? place := by
  rw [writeManifest]
  split
  · rfl
  · exact s.fileAt?_writeDeep_of_ne _ h

theorem current_writeManifest (directory : Path) (s : Store) (written : Written) :
    (writeManifest directory s written).1.current = s.current := by
  rw [writeManifest]
  split
  · rfl
  · exact s.current_writeDeep _ _

theorem mem_foldl_new_iff {α : Type} [DecidableEq α] {a : α} (l known : List α) :
    a ∈ l.foldl (fun known x => if x ∈ known then known else known ++ [x]) known ↔
      a ∈ known ∨ a ∈ l := by
  induction l generalizing known with
  | nil => simp
  | cons b l ih =>
      rw [List.foldl_cons, ih]
      split <;> grind

/-- Elements that are only appended when they are new are all different. -/
theorem nodup_foldl_new {α : Type} [DecidableEq α] (l known : List α)
    (h : known.Nodup) :
    (l.foldl (fun known x => if x ∈ known then known else known ++ [x]) known).Nodup := by
  induction l generalizing known with
  | nil => exact h
  | cons b l ih =>
      rw [List.foldl_cons]
      split
      · exact ih known h
      · next hb =>
          refine ih _ (List.nodup_append.2 ⟨h, by simp, ?_⟩)
          rintro a ha c hc rfl
          exact hb (List.mem_singleton.1 hc ▸ ha)

end Manifest

/-- The directory holds the files of the results and the manifest, and no other file. -/
structure IsExact (directory : Path) (results : List ExportResult) (t : Store) : Prop where
  /-- A file is there exactly if its path is that of a result or of the manifest. -/
  files : ∀ parts, (t.fileBelow? directory parts).isSome ↔
    directory.join ⟨.current, parts⟩ ∈ manifestPath directory :: paths directory results
  /-- No file of a result is elsewhere. -/
  inside : ∀ p ∈ paths directory results, ∃ parts, p = directory.join ⟨.current, parts⟩
  /-- A file has the text of the last result with its path. -/
  texts : ∀ earlier r later F parts, results = earlier ++ r :: later → r.file = some F →
    pathOf directory F ∉ paths directory later →
    pathOf directory F = directory.join ⟨.current, parts⟩ →
    ∃ text, F.text = .ok text ∧ t.fileBelow? directory parts = some (.text text)
  /-- The manifest lists the files of the results, each once, by their relative paths. -/
  manifest : ∃ text, t.fileBelow? directory [manifestName] = some (.text text) ∧
    (∃ entries, text = Manifest.render entries) ∧
    ∀ entries, text = Manifest.render entries →
      (entries.map Prod.fst).Nodup ∧
      ∀ key, key ∈ entries.map Prod.fst ↔
        ∃ parts, directory.join ⟨.current, parts⟩ ∈ paths directory results ∧
          key = "/".intercalate parts

/-- The files of the results have names and packages without slashes. -/
def ArePlain (results : List ExportResult) : Prop :=
  ∀ r ∈ results, ∀ F, r.file = some F → '/' ∉ F.package.toList ∧ '/' ∉ F.name.toList

section Exactness

variable {written : Written}

/-- Every file of a session lies below the directory, at parts that do not lead to the manifest. -/
theorem exists_fileParts {p : Path}
    (hplain : ArePlain results)
    (hp : p ∈ paths directory results) :
    ∃ parts, IsFileParts parts ∧ p = directory.join ⟨.current, parts⟩ := by
  obtain ⟨r, hr, F, hfile, rfl⟩ := mem_paths_iff.1 hp
  obtain ⟨hpackage, hname⟩ := hplain r hr F hfile
  exact ⟨_, isFileParts_partsFor hpackage hname, pathFor_eq directory hpackage hname⟩

theorem resolve_manifestPath (s : Store) (directory : Path) :
    s.resolve (manifestPath directory) = s.resolve directory ++ [manifestName] :=
  s.resolve_join directory (by decide)

/-- Paths of results are told apart by the places that they lead to. -/
theorem eq_join_of_resolve {p : Path} {parts : List String}
    (hplain : ArePlain results)
    (hp : p ∈ paths directory results)
    (h : s.resolve directory ++ parts = s.resolve p) :
    p = directory.join ⟨.current, parts⟩ ∧ IsFileParts parts := by
  obtain ⟨parts', hparts', rfl⟩ := exists_fileParts hplain hp
  rw [s.resolve_join directory hparts'.downwards] at h
  obtain rfl := List.append_cancel_left h
  exact ⟨rfl, hparts'⟩

/-- The files that are said to be written are those of the results. -/
theorem mem_keys_write_iff {p : Path}
    (h : (write directory s results).result = .ok written) :
    p ∈ written.keys ↔ p ∈ paths directory results := by
  rw [keys_writeAll directory s [] written results h, mem_foldl_new_iff]
  simp [Dictionary.keys]

theorem nodup_keys_write
    (h : (write directory s results).result = .ok written) :
    written.keys.Nodup := by
  rw [keys_writeAll directory s [] written results h]
  exact nodup_foldl_new _ _ List.nodup_nil

/-- The key of a file in the manifest is the path below the directory. -/
theorem manifestKey_join (directory : Path) (parts : List String) :
    manifestKey directory (directory.join ⟨.current, parts⟩) = "/".intercalate parts := by
  have hrelative : (directory.join ⟨.current, parts⟩).relativeTo? directory = some parts :=
    Path.relativeTo?_eq_some_iff.2 (Path.join_relative directory parts)
  rw [manifestKey, hrelative]
  rfl

/-- The manifest lists every file of the results once, and nothing else. -/
theorem keys_of_manifest {entries : List (String × List String)}
    (hplain : ArePlain results)
    (hwrite : (write directory s results).result = .ok written)
    (hentries : written.mapM (manifestEntry directory) = .ok entries) :
    (entries.map Prod.fst).Nodup ∧
      ∀ key, key ∈ entries.map Prod.fst ↔
        ∃ parts, directory.join ⟨.current, parts⟩ ∈ paths directory results ∧
          key = "/".intercalate parts := by
  rw [keys_of_entries hentries]
  constructor
  · refine (nodup_keys_write hwrite).map_on ?_
    intro p hp q hq hkey
    obtain ⟨parts, hparts, rfl⟩ := exists_fileParts hplain ((mem_keys_write_iff hwrite).1 hp)
    obtain ⟨others, hothers, rfl⟩ := exists_fileParts hplain ((mem_keys_write_iff hwrite).1 hq)
    rw [manifestKey_join, manifestKey_join] at hkey
    rw [Text.intercalate_slash_injective hparts.nonempty hothers.nonempty hparts.slashFree
      hothers.slashFree hkey]
  · intro key
    simp only [List.mem_map, mem_keys_write_iff hwrite]
    constructor
    · rintro ⟨p, hp, rfl⟩
      obtain ⟨parts, -, rfl⟩ := exists_fileParts hplain hp
      exact ⟨parts, hp, manifestKey_join directory parts⟩
    · rintro ⟨parts, hp, rfl⟩
      exact ⟨_, hp, manifestKey_join directory parts⟩

/-- The tree after the files of the results and the manifest were written. -/
def finish (directory : Path) (s : Store) (results : List ExportResult) (written : Written) :
    Store :=
  (writeManifest directory (write directory s results).store written).1

theorem current_write (directory : Path) (s : Store) (results : List ExportResult) :
    (write directory s results).store.current = s.current :=
  current_writeAll ..

theorem fileBelow?_finish (directory : Path) (s : Store) (results : List ExportResult)
    (written : Written) (parts : List String) :
    (finish directory s results written).fileBelow? directory parts =
      (finish directory s results written).fileAt? (s.resolve directory ++ parts) := by
  have hcurrent : (finish directory s results written).current = s.current :=
    (current_writeManifest ..).trans (current_write ..)
  rw [Store.fileBelow?, Store.resolve_congr hcurrent]

/-- The manifest is not written over any other file. -/
theorem fileBelow?_finish_of_ne {parts : List String}
    (s : Store) (results : List ExportResult) (written : Written)
    (h : parts ≠ [manifestName]) :
    (finish directory s results written).fileBelow? directory parts =
      (write directory s results).store.fileAt? (s.resolve directory ++ parts) := by
  rw [fileBelow?_finish, finish, fileAt?_writeManifest_of_ne]
  rw [Store.resolve_congr (current_write ..), resolve_manifestPath]
  exact fun hplace => h (List.append_cancel_left hplace)

/-- The manifest lies below the directory. -/
theorem fileBelow?_finish_manifest
    (h : (writeManifest directory (write directory s results).store written).2 = .ok ()) :
    ∃ entries, written.mapM (manifestEntry directory) = .ok entries ∧
      (finish directory s results written).fileBelow? directory [manifestName] =
        some (.text (Manifest.render entries)) := by
  obtain ⟨entries, hentries, hdeep, hstore⟩ := writeManifest_eq_ok h
  refine ⟨entries, hentries, ?_⟩
  rw [fileBelow?_finish, finish, hstore, ← resolve_manifestPath,
    ← Store.resolve_congr (current_write directory s results)]
  exact Store.fileAt?_writeDeep_self hdeep

/-- A file holds the text of the last result with its path. -/
theorem text_finish {earlier later : List ExportResult} {r : ExportResult} {F : Source.File}
    {parts : List String}
    (hwrite : (write directory s (earlier ++ r :: later)).result = .ok written)
    (hfile : r.file = some F)
    (hlast : ∀ q ∈ paths directory later, s.resolve (pathOf directory F) ≠ s.resolve q)
    (hparts : IsFileParts parts)
    (hplace : s.resolve (pathOf directory F) = s.resolve directory ++ parts) :
    ∃ text, F.text = .ok text ∧
      (finish directory s (earlier ++ r :: later) written).fileBelow? directory parts =
        some (.text text) := by
  rw [fileBelow?_finish_of_ne _ _ _ hparts.notManifest, ← hplace]
  exact text_writeAll s [] earlier hwrite hfile hlast

/-- If there was nothing below the directory before, there is nothing but the manifest and the files
of the results. -/
theorem mem_of_isSome_finish {parts : List String}
    (hempty : ∀ rest, s.fileAt? (s.resolve directory ++ rest) = none)
    (hplain : ArePlain results)
    (h : ((finish directory s results written).fileBelow? directory parts).isSome) :
    directory.join ⟨.current, parts⟩ ∈ manifestPath directory :: paths directory results := by
  by_cases hmanifest : parts = [manifestName]
  · subst hmanifest
    exact List.mem_cons_self
  · refine List.mem_cons_of_mem _ ?_
    rw [fileBelow?_finish_of_ne _ _ _ hmanifest] at h
    by_contra hnot
    rw [write, fileAt?_writeAll_of_not_mem, hempty] at h
    · simp at h
    · intro p hp hplace
      exact hnot ((eq_join_of_resolve hplain hp hplace).1 ▸ hp)

/-- The file of every result is there. -/
theorem isSome_finish_of_mem {parts : List String}
    (hplain : ArePlain results)
    (hwrite : (write directory s results).result = .ok written)
    (hp : directory.join ⟨.current, parts⟩ ∈ paths directory results) :
    ((finish directory s results written).fileBelow? directory parts).isSome := by
  obtain ⟨parts', hparts, hjoin⟩ := exists_fileParts hplain hp
  obtain rfl := Path.join_injective hjoin
  obtain ⟨earlier, r, later, F, rfl, hfile, hplace, hlast⟩ := exists_last s
    ⟨_, hp, s.resolve_join directory hparts.downwards⟩
  obtain ⟨text, -, htext⟩ := text_finish hwrite hfile (hplace ▸ hlast) hparts hplace
  rw [htext]
  rfl

theorem last_text_finish {earlier later : List ExportResult} {r : ExportResult}
    {F : Source.File} {parts : List String}
    (hplain : ArePlain (earlier ++ r :: later))
    (hwrite : (write directory s (earlier ++ r :: later)).result = .ok written)
    (hfile : r.file = some F)
    (hlast : pathOf directory F ∉ paths directory later)
    (hjoin : pathOf directory F = directory.join ⟨.current, parts⟩) :
    ∃ text, F.text = .ok text ∧
      (finish directory s (earlier ++ r :: later) written).fileBelow? directory parts =
        some (.text text) := by
  have hpath : pathOf directory F ∈ paths directory (earlier ++ r :: later) :=
    mem_paths_iff.2 ⟨r, by simp, F, hfile, rfl⟩
  obtain ⟨parts', hparts, hjoin'⟩ := exists_fileParts hplain hpath
  obtain rfl := Path.join_injective (hjoin.symm.trans hjoin')
  have hplace : s.resolve (pathOf directory F) = s.resolve directory ++ parts := by
    rw [hjoin, s.resolve_join directory hparts.downwards]
  refine text_finish hwrite hfile (fun q hq h => hlast ?_) hparts hplace
  -- a later result with the same place would have the same path
  obtain ⟨r', hr', G, hG, rfl⟩ := mem_paths_iff.1 hq
  have hq' : pathOf directory G ∈ paths directory (earlier ++ r :: later) :=
    mem_paths_iff.2 ⟨r', by simp [hr'], G, hG, rfl⟩
  rw [hjoin, ← (eq_join_of_resolve hplain hq' (hplace.symm.trans h)).1]
  exact hq

/-- What is written below a directory without files makes it exact. -/
theorem isExact_finish
    (hempty : ∀ rest, s.fileAt? (s.resolve directory ++ rest) = none)
    (hplain : ArePlain results)
    (hwrite : (write directory s results).result = .ok written)
    (hmanifest :
      (writeManifest directory (write directory s results).store written).2 = .ok ()) :
    IsExact directory results (finish directory s results written) := by
  obtain ⟨entries, hentries, hlisted⟩ := fileBelow?_finish_manifest hmanifest
  refine ⟨?_, ?_, ?_, ?_⟩
  · intro parts
    refine ⟨mem_of_isSome_finish hempty hplain, fun hmem => ?_⟩
    rcases List.mem_cons.1 hmem with h | hp
    · obtain rfl := Path.join_injective h
      rw [hlisted]
      rfl
    · exact isSome_finish_of_mem hplain hwrite hp
  · intro p hp
    obtain ⟨parts, -, hparts⟩ := exists_fileParts hplain hp
    exact ⟨parts, hparts⟩
  · intro earlier r later F parts hresults
    subst hresults
    exact last_text_finish hplain hwrite
  · refine ⟨_, hlisted, ⟨entries, rfl⟩, ?_⟩
    intro others hothers
    have hperm := (Manifest.perm_of_render hothers).map Prod.fst
    obtain ⟨hnodup, hkeys⟩ := keys_of_manifest hplain hwrite hentries
    exact ⟨hperm.nodup_iff.1 hnodup, fun key => hperm.mem_iff.symm.trans (hkeys key)⟩

end Exactness

end Output

namespace Generation

open Output

variable {s : Store} {m : Machine} {o : Options} {inputs : List Path} {specs : List InstanceSpec}

/-- The results of the session that a run comes to. -/
def Planned (s : Store) (m : Machine) (o : Options) (inputs : List Path)
    (specs : List InstanceSpec) (results : List ExportResult) : Prop :=
  ∃ found session, (Discovery.run s m o.toOptions inputs specs).result = .ok found ∧
    Session.run found.requests found.extraExceptions o.erasePackage = .ok session ∧
    results = session.results

/-- The run stops before it writes. -/
inductive Aborts (s : Store) (m : Machine) (o : Options) (inputs : List Path)
    (specs : List InstanceSpec) : Prop
  /-- The output directory must not be cleared. -/
  | unguarded (e : Error)
      (hdirectory : checkDirectory s o = .error e)
  /-- An input cannot be read, or the virtual machine raises an exception. -/
  | undiscovered (e : Discovery.Error)
      (hfound : (Discovery.run s m o.toOptions inputs specs).result = .error e)
  /-- The session cannot start. -/
  | unstarted (found : Discovery.Findings) (e : Session.StartError)
      (hfound : (Discovery.run s m o.toOptions inputs specs).result = .ok found)
      (hstart : Session.run found.requests found.extraExceptions o.erasePackage = .error e)

/-- A run that aborts has changed nothing. -/
theorem run_of_aborts
    (h : Aborts s m o inputs specs) :
    (run s m o inputs specs).store = s ∧ ∃ e, (run s m o inputs specs).result = .error e := by
  cases h with
  | unguarded e hdirectory =>
      refine ⟨store_run_of_unguarded s m o inputs specs e hdirectory, ?_⟩
      simp [run, hdirectory]
  | undiscovered e hfound =>
      refine ⟨store_run_of_undiscovered s m o inputs specs e hfound, ?_⟩
      rw [run]
      split
      · exact ⟨_, rfl⟩
      · simp [hfound]
  | unstarted found e hfound hstart =>
      refine ⟨store_run_of_unstarted s m o inputs specs found e hfound hstart, ?_⟩
      rw [run]
      split
      · exact ⟨_, rfl⟩
      · simp [hfound, hstart]

/-- A run that does not stop before it writes delivers the results of its session. -/
theorem aborts_or_delivers (s : Store) (m : Machine) (o : Options) (inputs : List Path)
    (specs : List InstanceSpec) :
    Aborts s m o inputs specs ∨
      ∃ results diagnostics, Planned s m o inputs specs results ∧
        (run s m o inputs specs).store = (deliver s o results diagnostics).store ∧
        (run s m o inputs specs).result = (deliver s o results diagnostics).result := by
  cases hdirectory : checkDirectory s o with
  | error e => exact .inl (.unguarded e hdirectory)
  | ok _ =>
      cases hfound : (Discovery.run s m o.toOptions inputs specs).result with
      | error e => exact .inl (.undiscovered e hfound)
      | ok found =>
          cases hstart : Session.run found.requests found.extraExceptions o.erasePackage with
          | error e => exact .inl (.unstarted found e hfound hstart)
          | ok session =>
              refine .inr ⟨session.results,
                found.diagnostics ++ session.results.flatMap ExportResult.diagnostics,
                ⟨found, session, hfound, hstart, rfl⟩, ?_, ?_⟩
              · simp only [run, hdirectory, hfound, hstart]
              · simp only [run, hdirectory, hfound, hstart]

theorem current_prepare (s : Store) (o : Options) :
    (prepare s o).current = s.current := by
  rw [prepare]
  split
  · exact s.current_removeTree o.directory
  · rfl

/-- Only the files of the results and the manifest are written to. -/
theorem fileAt?_deliver {results : List ExportResult} {place : Place}
    (diagnostics : List Diagnostic)
    (hmanifest : place ≠ s.resolve (manifestPath o.directory))
    (hresults : ∀ p ∈ paths o.directory results, place ≠ s.resolve p) :
    (deliver s o results diagnostics).store.fileAt? place = (prepare s o).fileAt? place := by
  have hwrite : (Output.write o.directory (prepare s o) results).store.fileAt? place =
      (prepare s o).fileAt? place := by
    refine fileAt?_writeAll_of_not_mem _ _ fun p hp => ?_
    rw [Store.resolve_congr (current_prepare s o)]
    exact hresults p hp
  have hcurrent : (Output.write o.directory (prepare s o) results).store.current = s.current :=
    (current_write ..).trans (current_prepare s o)
  rw [deliver]
  split
  · exact hwrite
  · next written _ =>
      rw [← Store.resolve_congr hcurrent] at hmanifest
      have hlast := fileAt?_writeManifest_of_ne
        (Output.write o.directory (prepare s o) results).store written hmanifest
      split
      · next hnext => rw [← hwrite, ← hlast, hnext]
      · next hnext => rw [← hwrite, ← hlast, hnext]

/-- A delivery that succeeds has written the results and then the manifest. -/
theorem deliver_eq_ok {results : List ExportResult} {diagnostics reported : List Diagnostic}
    (h : (deliver s o results diagnostics).result = .ok reported) :
    ∃ written, (Output.write o.directory (prepare s o) results).result = .ok written ∧
      (writeManifest o.directory (Output.write o.directory (prepare s o) results).store
        written).2 = .ok () ∧
      (deliver s o results diagnostics).store =
        finish o.directory (prepare s o) results written := by
  rw [deliver] at h ⊢
  split at h
  · simp at h
  · next written hwritten =>
      split at h
      · simp at h
      · next hnext =>
          refine ⟨written, hwritten, by rw [hnext], ?_⟩
          simp only [hnext, finish]

/-- The results of requests with plain names have plain names. -/
theorem arePlain_of_planned {results : List ExportResult}
    (hplain : ∀ found, (Discovery.run s m o.toOptions inputs specs).result = .ok found →
      ∀ r ∈ found.requests, r.IsPlain)
    (h : Planned s m o inputs specs results) :
    ArePlain results := by
  obtain ⟨found, session, hfound, hsession, rfl⟩ := h
  obtain ⟨ctx, -, rfl⟩ := Session.run_eq_ok_iff.1 hsession
  intro r hr F hfile
  obtain ⟨request, hrequest, rfl⟩ := List.mem_map.1 hr
  exact Request.plain_of_build (hplain found hfound request hrequest)
    (Request.build_of_fulfil hfile)

/-- What a run promises about the files below its output directory. -/
structure OutputContract (s : Store) (m : Machine) (o : Options) (inputs : List Path)
    (specs : List InstanceSpec) : Prop where
  /-- A run that stops before it writes fails and changes nothing. -/
  untouched : Aborts s m o inputs specs →
    (run s m o inputs specs).store = s ∧ ∃ e, (run s m o inputs specs).result = .error e
  /-- A run that clears the output directory and succeeds makes it exact. -/
  exact : o.clear = true → ∀ diagnostics, (run s m o inputs specs).result = .ok diagnostics →
    ∃ results, Planned s m o inputs specs results ∧
      IsExact o.directory results (run s m o inputs specs).store
  /-- A run that does not clear it keeps the files that it does not write, even if it fails. -/
  kept : o.clear = false → ∀ place content, s.fileAt? place = some content →
    place ≠ s.resolve (manifestPath o.directory) →
    (∀ results, Planned s m o inputs specs results →
      ∀ p ∈ paths o.directory results, place ≠ s.resolve p) →
    (run s m o inputs specs).store.fileAt? place = some content

/-- A run fails with the files untouched, or leaves exactly the files of its results and their
manifest below the output directory. -/
theorem output_is_untouched_or_exact
    (s : Store) (m : Machine) (o : Options) (inputs : List Path) (specs : List InstanceSpec)
    (hdirectory : s.IsDirOrAbsent o.directory)
    (hplain : ∀ found, (Discovery.run s m o.toOptions inputs specs).result = .ok found →
      ∀ r ∈ found.requests, r.IsPlain) :
    OutputContract s m o inputs specs where
  untouched := run_of_aborts
  exact := by
    intro hclear reported hok
    rcases aborts_or_delivers s m o inputs specs with
      haborts | ⟨results, diagnostics, hplanned, hstore, hresult⟩
    · obtain ⟨-, e, he⟩ := run_of_aborts haborts
      rw [he] at hok
      simp at hok
    · refine ⟨results, hplanned, ?_⟩
      obtain ⟨written, hwrite, hmanifest, hfinish⟩ := deliver_eq_ok (hresult ▸ hok)
      rw [hstore, hfinish]
      refine isExact_finish ?_ (arePlain_of_planned hplain hplanned) hwrite hmanifest
      intro rest
      rw [Store.resolve_congr (current_prepare s o), prepare, if_pos hclear]
      exact Store.fileAt?_removeTree_below hdirectory rest
  kept := by
    intro hclear place content hfile hmanifest hresults
    rcases aborts_or_delivers s m o inputs specs with
      haborts | ⟨results, diagnostics, hplanned, hstore, -⟩
    · rw [(run_of_aborts haborts).1, hfile]
    · rw [hstore, fileAt?_deliver diagnostics hmanifest (hresults results hplanned), prepare,
        if_neg (by simp [hclear]), hfile]

section App

open Session Discovery

/-- The output directory is the one that holds the classes. -/
def appOptions : Generation.Options where
  directory := ⟨.current, ["in", "app"]⟩

def appOutcome : Generation.Outcome :=
  run appStore (appMachine []) appOptions [appInput] []

theorem delivers_app :
    (Session.run (appFound (appMachine []).classes []).requests
        (appFound (appMachine []).classes []).extraExceptions
        appOptions.erasePackage).toOption.any (fun session =>
      (deliver appStore appOptions session.results
          ((appFound (appMachine []).classes []).diagnostics ++
            session.results.flatMap ExportResult.diagnostics)).result.isOk &&
        paths appOptions.directory session.results =
          [⟨.current, ["in", "app", "app", "js", "Fine.kt"]⟩]) = true := by
  decide +kernel

theorem output_is_untouched_or_exact_of_app :
    appStore.isDir appOptions.directory ∧
      (appStore.fileBelow? appOptions.directory ["Fine.class"]).isSome ∧
      ∃ diagnostics results,
        appOutcome.result = .ok diagnostics ∧
          paths appOptions.directory results =
            [⟨.current, ["in", "app", "app", "js", "Fine.kt"]⟩] ∧
          IsExact appOptions.directory results appOutcome.store := by
  have hdir : appStore.isDir appOptions.directory := by decide +kernel
  have hfound : (Discovery.run appStore (appMachine []) appOptions.toOptions [appInput] []).result =
      .ok (appFound (appMachine []).classes []) := result_run_app (appMachine []).classes []
  have hcontract := output_is_untouched_or_exact appStore (appMachine []) appOptions [appInput] []
    (.inl hdir) (by
      intro found hok
      obtain rfl := Except.ok.inj (hfound.symm.trans hok)
      decide +kernel)
  have hdelivers := delivers_app
  cases hsession : Session.run (appFound (appMachine []).classes []).requests
      (appFound (appMachine []).classes []).extraExceptions appOptions.erasePackage with
  | error e => simp [hsession, Except.toOption] at hdelivers
  | ok session =>
      simp only [hsession, Except.toOption, Option.any_some, Bool.and_eq_true, decide_eq_true_eq]
        at hdelivers
      obtain ⟨hok, hpaths⟩ := hdelivers
      have hcheck : checkDirectory appStore appOptions = .ok () := rfl
      obtain ⟨diagnostics, hresult⟩ : ∃ diagnostics, appOutcome.result = .ok diagnostics := by
        simp only [appOutcome, run, hcheck, hfound, hsession]
        cases hlast : (deliver appStore appOptions session.results
            ((appFound (appMachine []).classes []).diagnostics ++
              session.results.flatMap ExportResult.diagnostics)).result with
        | error e => simp [hlast, Except.isOk, Except.toBool] at hok
        | ok diagnostics => exact ⟨diagnostics, rfl⟩
      obtain ⟨results, ⟨found, outcome, hfound', hsession', rfl⟩, hexact⟩ :=
        hcontract.exact rfl diagnostics hresult
      obtain rfl := Except.ok.inj (hfound.symm.trans hfound')
      obtain rfl := Except.ok.inj (hsession.symm.trans hsession')
      exact ⟨hdir, by decide +kernel, diagnostics, _, hresult, hpaths, hexact⟩

end App

end Generation
end Facade
