import Facade.Files.Store

/-!
# What writing and removing do to the files of a tree

**Input.**  A tree of directories and files, seen as the content of the file at every place.

**Algorithm.**  A path that can be followed leads to the place that it names.  Making directories
adds directories where nothing is, so no file is touched; writing then sets the content at one
place.

**Results.**
* `resolve_of_locate`: following a path and naming a place agree.
* `grown_makeDirs`: making directories only adds directories.
* `fileAt?_writeDeep_of_ne`: writing a file, even without success, leaves every other file alone.
* `fileAt?_writeDeep_self`: a file that was written has its content.
* `fileAt?_removeTree_below`: no file is left below a directory that was removed.
-/

namespace Facade
namespace Store

/-- The content of the file at a place. -/
def fileAt? (s : Store) (place : Place) : Option Content :=
  match s.node? place with
  | some (.file content) => some content
  | _ => none

section Places

variable {s t : Store} {path : Path}

theorem step_of_follow {place next : Place} {part : String}
    (h : s.follow place part = .ok next) :
    next = step place part := by
  rw [follow] at h
  split at h
  · split at h
    · simp at h
    · exact (Except.ok.inj h).symm
  · simp at h
  · split at h
    · exact (Except.ok.inj h).symm
    · simp at h

theorem foldl_step_of_walk {place last : Place} {parts : List String}
    (h : s.walk place parts = .ok last) :
    last = parts.foldl step place := by
  induction parts generalizing place with
  | nil => exact (Except.ok.inj h).symm
  | cons part rest ih =>
      rw [walk] at h
      split at h
      · simp at h
      · next hnext =>
          rw [ih h, step_of_follow hnext]
          rfl

/-- The place that a path is located at does not depend on the files. -/
theorem resolve_of_locate {place : Place}
    (h : s.locate path = .ok place) :
    place = s.resolve path := by
  rw [locate] at h
  split at h
  · simp at h
  · split at h
    · simp at h
    · exact foldl_step_of_walk h

theorem resolve_congr
    (h : t.current = s.current) (path : Path) :
    t.resolve path = s.resolve path := by
  simp only [resolve, startOf, h]

/-- Without dots that lead back, parts are appended. -/
theorem foldl_step_eq_append {parts : List String}
    (h : ".." ∉ parts) (place : Place) :
    parts.foldl step place = place ++ parts := by
  induction parts generalizing place with
  | nil => simp
  | cons part rest ih =>
      obtain ⟨hpart, hrest⟩ := List.ne_and_not_mem_of_not_mem_cons h
      rw [List.foldl_cons, ih hrest, step, if_neg (Ne.symm hpart), List.append_assoc]
      rfl

/-- Parts without two dots lead downwards. -/
theorem resolve_join {parts : List String}
    (s : Store) (directory : Path)
    (h : ".." ∉ parts) :
    s.resolve (directory.join ⟨.current, parts⟩) = s.resolve directory ++ parts := by
  rw [Path.join_relative, resolve, List.foldl_append, foldl_step_eq_append h]
  rfl

end Places

/-- A tree that has all the nodes of another one, and besides them only directories. -/
structure Grown (s t : Store) : Prop where
  current : t.current = s.current
  node : ∀ place, t.node? place = s.node? place ∨ s.node? place = none ∧ t.node? place = some .dir

namespace Grown

variable {s t u : Store}

theorem refl (s : Store) : Grown s s :=
  ⟨rfl, fun _ => .inl rfl⟩

/-- A store that grows twice has grown. -/
theorem trans
    (hst : Grown s t)
    (htu : Grown t u) :
    Grown s u where
  current := htu.current.trans hst.current
  node place := by
    rcases hst.node place with h | ⟨hnone, hdir⟩
    · rw [← h]
      exact htu.node place
    · rcases htu.node place with h | ⟨h, -⟩
      · exact .inr ⟨hnone, h.trans hdir⟩
      · simp [hdir] at h

theorem putNode {place : Place}
    (h : s.node? place = none) :
    Grown s (s.putNode place .dir) where
  current := rfl
  node other := by
    by_cases hother : other = place
    · subst hother
      have hne : other ≠ [] := by
        rintro rfl
        simp [node?] at h
      exact .inr ⟨h, s.node?_putNode_self .dir hne⟩
    · exact .inl (s.node?_putNode_of_ne .dir hother)

/-- A store that has only grown has the same files. -/
theorem fileAt?_eq
    (h : Grown s t) (place : Place) :
    t.fileAt? place = s.fileAt? place := by
  rcases h.node place with heq | ⟨hnone, hdir⟩
  · rw [fileAt?, heq, fileAt?]
  · rw [fileAt?, hdir, fileAt?, hnone]

end Grown

section Writes

variable {s t : Store} {path : Path}

theorem grown_makeDir
    (h : s.makeDir path = .ok t) :
    Grown s t := by
  rw [makeDir] at h
  cases hlocate : s.locate path with
  | error fault => simp [hlocate, bind, Except.bind] at h
  | ok place =>
      simp only [hlocate, bind, Except.bind] at h
      split at h
      · simp at h
      · next hnone =>
          obtain rfl := Except.ok.inj h
          exact .putNode hnone

/-- What was made stays when a later part fails, and it is only directories. -/
theorem grown_makeBelow
    (s : Store) (anchor : Path.Anchor) (before : List String) (place : Place)
    (parts : List String) :
    Grown s (s.makeBelow anchor before place parts).1 := by
  induction parts generalizing s before place with
  | nil => exact .refl s
  | cons part rest ih =>
      rw [makeBelow]
      split
      · exact .refl s
      · next next _ =>
          split
          · next hnone =>
              by_cases hpart : part = ".."
              · simp only [hpart, if_true]
                exact ih s _ next
              · simp only [hpart, if_false]
                exact (Grown.putNode hnone).trans (ih _ _ next)
          · exact ih s _ next
          · exact .refl s

/-- Making directories changes no file. -/
theorem grown_makeDirs (s : Store) (path : Path) :
    Grown s (s.makeDirs path).1 := by
  rw [makeDirs]
  split
  · next hmade => exact grown_makeDir hmade
  · exact grown_makeBelow s _ _ _ _
  · exact .refl s

/-- A file that is written is set at the place of its path, which is not the root. -/
theorem write_eq_ok {content : Content}
    (h : s.write path content = .ok t) :
    s.resolve path ≠ [] ∧ t = s.putNode (s.resolve path) (.file content) := by
  rw [write] at h
  split at h
  · simp at h
  · next place hlocate =>
      obtain rfl := resolve_of_locate hlocate
      split at h
      · simp at h
      · next hnode =>
          refine ⟨?_, (Except.ok.inj h).symm⟩
          intro hroot
          exact hnode (by simp [node?, hroot])

/-- Writing a file makes directories and then sets the content at its place, or stops before. -/
theorem writeDeep_cases (s : Store) (path : Path) (content : Content) :
    (∃ e, (s.writeDeep path content).2 = .error e ∧ Grown s (s.writeDeep path content).1) ∨
      (s.writeDeep path content).2 = .ok () ∧ s.resolve path ≠ [] ∧
        ∃ made, Grown s made ∧
          (s.writeDeep path content).1 = made.putNode (s.resolve path) (.file content) := by
  have hgrown := grown_makeDirs s path.parent
  rw [writeDeep]
  split
  · next made e hmade =>
      rw [hmade] at hgrown
      exact .inl ⟨e, rfl, hgrown⟩
  · next made hmade =>
      rw [hmade] at hgrown
      split
      · next written hwritten =>
          obtain ⟨hne, rfl⟩ := write_eq_ok hwritten
          rw [resolve_congr hgrown.current] at hne ⊢
          exact .inr ⟨rfl, hne, made, hgrown, rfl⟩
      · next e _ => exact .inl ⟨e, rfl, hgrown⟩

theorem current_writeDeep (s : Store) (path : Path) (content : Content) :
    (s.writeDeep path content).1.current = s.current := by
  rcases s.writeDeep_cases path content with ⟨e, -, hgrown⟩ | ⟨-, -, made, hgrown, h⟩
  · exact hgrown.current
  · rw [h]
    exact hgrown.current

/-- Writing a file changes no other file. -/
theorem fileAt?_writeDeep_of_ne {place : Place}
    (s : Store) (content : Content)
    (hne : place ≠ s.resolve path) :
    (s.writeDeep path content).1.fileAt? place = s.fileAt? place := by
  rcases s.writeDeep_cases path content with ⟨e, -, hgrown⟩ | ⟨-, -, made, hgrown, h⟩
  · exact hgrown.fileAt?_eq place
  · rw [h, fileAt?, node?_putNode_of_ne _ _ hne, ← fileAt?]
    exact hgrown.fileAt?_eq place

/-- A file that is written holds what was written. -/
theorem fileAt?_writeDeep_self {content : Content}
    (h : (s.writeDeep path content).2 = .ok ()) :
    (s.writeDeep path content).1.fileAt? (s.resolve path) = some content := by
  rcases s.writeDeep_cases path content with ⟨e, he, -⟩ | ⟨-, hne, made, -, hput⟩
  · simp [h] at he
  · rw [hput, fileAt?, node?_putNode_self _ _ hne]

end Writes

section Removal

variable {s : Store} {path : Path}

theorem node?_keep_of_not {kind : Place → Bool} {place : Place}
    (s : Store)
    (h : kind place = false)
    (hne : place ≠ []) :
    (s.keep kind).node? place = none := by
  rw [node?, if_neg hne, Dictionary.get?, Option.map_eq_none_iff, List.find?_eq_none]
  rintro ⟨⟨depth, other⟩, node⟩ hmem hkey
  obtain ⟨-, hkind⟩ := List.mem_filter.1 hmem
  obtain ⟨rfl, rfl⟩ : depth = place.length ∧ other = place := by
    simpa [keyOf] using hkey
  simp [h] at hkind

theorem fileAt?_keep_of_not {kind : Place → Bool} {place : Place}
    (s : Store)
    (h : kind place = false) :
    (s.keep kind).fileAt? place = none := by
  by_cases hne : place = []
  · simp [fileAt?, node?, hne]
  · rw [fileAt?, s.node?_keep_of_not h hne]

theorem fileAt?_keep_of_none {place : Place}
    (h : s.fileAt? place = none) (kind : Place → Bool) :
    (s.keep kind).fileAt? place = none := by
  cases hkind : kind place with
  | false => exact s.fileAt?_keep_of_not hkind
  | true =>
      rw [fileAt?, s.node?_keep hkind]
      exact h

theorem current_removeTree (s : Store) (path : Path) :
    (s.removeTree path).current = s.current := by
  rw [removeTree]
  split
  · rfl
  · split
    · dsimp only
      split <;> rfl
    · rfl

/-- The place of a path is a directory, or there is nothing at it and below it. -/
def IsDirOrAbsent (s : Store) (path : Path) : Prop :=
  s.isDir path ∨ ∀ rest, s.node? (s.resolve path ++ rest) = none

theorem locate_of_isDir
    (h : s.isDir path) :
    s.locate path = .ok (s.resolve path) ∧ s.node? (s.resolve path) = some .dir := by
  rw [isDir, lookup] at h
  cases hlocate : s.locate path with
  | error fault => simp [hlocate, bind, Except.bind] at h
  | ok place =>
      obtain rfl := resolve_of_locate hlocate
      refine ⟨rfl, ?_⟩
      simp only [hlocate, bind, Except.bind] at h
      cases hnode : s.node? (s.resolve path) with
      | none => simp [hnode] at h
      | some node =>
          cases node with
          | dir => rfl
          | file content => simp [hnode] at h

/-- Below a directory that is cleared there is no file. -/
theorem fileAt?_clearBelow {top : Place}
    (htop : s.node? top = some .dir) (rest : List String) :
    (s.clearBelow top).fileAt? (top ++ rest) = none := by
  cases rest with
  | nil =>
      rw [List.append_nil]
      exact fileAt?_keep_of_none (by rw [fileAt?, htop]) _
  | cons part rest =>
      refine s.fileAt?_keep_of_not ?_
      have hbelow : Path.afterParts? top (top ++ part :: rest) = some (part :: rest) :=
        Path.afterParts?_eq_some_iff.2 rfl
      simp [hbelow]

/-- Below a tree that is removed there is no file. -/
theorem fileAt?_removeTree_below
    (h : s.IsDirOrAbsent path) (rest : List String) :
    (s.removeTree path).fileAt? (s.resolve path ++ rest) = none := by
  rw [removeTree]
  rcases h with hdir | habsent
  · obtain ⟨hlocate, hnode⟩ := locate_of_isDir hdir
    have hcleared := fileAt?_clearBelow hnode rest
    simp only [hlocate, hnode]
    split
    · exact fileAt?_keep_of_none hcleared _
    · exact hcleared
  · have hnone : s.fileAt? (s.resolve path ++ rest) = none := by rw [fileAt?, habsent]
    have htop : s.node? (s.resolve path) = none := by simpa using habsent []
    cases hlocate : s.locate path with
    | error fault => exact hnone
    | ok place =>
        obtain rfl := resolve_of_locate hlocate
        simp only [htop]
        exact hnone

end Removal

end Store
end Facade
