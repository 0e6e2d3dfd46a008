import Facade.Proofs.StoreWrites
import Facade.Proofs.TypeNames
import Mathlib.Data.List.Induction

/-!
# When a file can be written

Writing a file makes the directories above it that are missing.  In a proper tree, where everything
lies in a directory, this can fail for few reasons: the path is too long or holds a null character,
a file is in the way, or a directory is where the file has to go.

**Input.**  A tree of directories and files, and the path of a file.

**Algorithm.**  The path is followed part by part; the places on the way are its trail.  Directories
are made where the trail leads to nothing, so that the next part can be followed.

**Results.**
* `makeBelow_eq_ok_iff`: directories can be made along parts that are not too long, unless a file is
  on the trail; then the whole trail consists of directories.
* `makeDirs_eq_ok_iff`: the first attempt, to make the last directory only, changes nothing about
  this.
* `writeDeep_eq_ok_iff`: a file can be written exactly if its path is free.
* `IsTree.writeDeep`: a tree stays a tree.
-/

namespace Facade

namespace Path

variable {path : Path} {front : List String} {last : String}

theorem hasNull_parent
    (h : path.hasNull = false) :
    path.parent.hasNull = false := by
  simp only [hasNull, List.any_eq_false] at h ⊢
  exact fun part hpart => h part ((List.dropLast_sublist _).mem hpart)

/-- The text of a path does not get longer without its last part. -/
theorem isLong_parent
    (hparts : path.parts = front ++ [last])
    (h : path.isLong = false) :
    path.parent.isLong = false := by
  have hparent : path.parent = ⟨path.anchor, front⟩ := by
    rw [parent, hparts, List.dropLast_concat]
  rw [hparent]
  cases front with
  | nil => cases path.anchor <;> decide
  | cons part front =>
      have htext : path.text =
          (⟨path.anchor, part :: front⟩ : Path).text ++ ("/" ++ last) := by
        simp only [text, bareText, hparts, String.intercalate_append_of_ne_nil
          (List.cons_ne_nil part front) (List.cons_ne_nil last [])]
        simp [String.append_assoc]
      simp only [isLong, htext, String.utf8ByteSize_append, decide_eq_false_iff_not,
        Nat.not_lt] at h ⊢
      omega

end Path

namespace Store

/-- Everything lies in a directory, and the current directory is there. -/
structure IsTree (s : Store) : Prop where
  parent : ∀ place part node, s.node? (place ++ [part]) = some node → s.node? place = some .dir
  current : s.node? s.current = some .dir

/-- The places that parts lead to one after the other, from a place on. -/
def trail (place : Place) : List String → List Place
  | [] => [place]
  | part :: rest => place :: trail (step place part) rest

/-- The places on the way to what a path leads to. -/
def wayTo (s : Store) (path : Path) : List Place :=
  trail (s.startOf path) path.parts.dropLast

/-- A file can be put where the path leads. -/
structure Free (s : Store) (path : Path) : Prop where
  nullFree : path.hasNull = false
  short : path.isLong = false
  shortParts : ∀ part ∈ path.parts, Path.isLongPart part = false
  /-- No file is in the way. -/
  clear : ∀ place ∈ s.wayTo path, s.fileAt? place = none
  /-- No directory is at the place, or would be made there. -/
  vacant : s.node? (s.resolve path) ≠ some .dir ∧ s.resolve path ∉ s.wayTo path

/-- Whether a place is a directory. -/
def isDirAt (s : Store) (place : Place) : Bool :=
  match s.node? place with
  | some .dir => true
  | _ => false

theorem isDirAt_eq_false_iff {s : Store} {place : Place} :
    s.isDirAt place = false ↔ s.node? place ≠ some .dir := by
  rw [isDirAt]
  split
  · next hdir => simp [hdir]
  · next hnot => simpa using hnot

instance (s : Store) (path : Path) : Decidable (s.Free path) :=
  decidable_of_iff
    (path.hasNull = false ∧ path.isLong = false ∧
      (∀ part ∈ path.parts, Path.isLongPart part = false) ∧
      (∀ place ∈ s.wayTo path, (s.fileAt? place).isNone = true) ∧
      s.isDirAt (s.resolve path) = false ∧ s.resolve path ∉ s.wayTo path) <| by
    simp only [Option.isNone_iff_eq_none, isDirAt_eq_false_iff]
    constructor
    · rintro ⟨hnull, hlong, hparts, hclear, hvacant⟩
      exact ⟨hnull, hlong, hparts, hclear, hvacant⟩
    · rintro ⟨hnull, hlong, hparts, hclear, hvacant⟩
      exact ⟨hnull, hlong, hparts, hclear, hvacant⟩

section Trails

theorem wayTo_congr {s t : Store}
    (h : t.current = s.current) (path : Path) :
    t.wayTo path = s.wayTo path := by
  simp only [wayTo, startOf, h]

theorem mem_trail_self (place : Place) (parts : List String) :
    place ∈ trail place parts := by
  cases parts with
  | nil => exact List.mem_singleton_self place
  | cons part rest => exact List.mem_cons_self

theorem foldl_step_mem_trail (place : Place) (parts : List String) :
    parts.foldl step place ∈ trail place parts := by
  induction parts generalizing place with
  | nil => exact List.mem_singleton_self place
  | cons part rest ih => exact List.mem_cons_of_mem _ (ih _)

/-- The way along two paths is the way along the first, and on from its end. -/
theorem mem_trail_append_iff {other : Place} (place : Place) (front rest : List String) :
    other ∈ trail place (front ++ rest) ↔
      other ∈ trail place front ∨ other ∈ trail (front.foldl step place) rest := by
  induction front generalizing place with
  | nil =>
      have hself : other = place → other ∈ trail place rest :=
        fun heq => heq ▸ mem_trail_self place rest
      simpa [trail] using hself
  | cons part front ih =>
      rw [List.cons_append, trail, trail, List.mem_cons, List.mem_cons, ih, or_assoc]
      rfl

/-- Parts without two dots lead through the places above the last one. -/
theorem exists_of_mem_trail {place other : Place} {parts : List String}
    (hdots : ".." ∉ parts)
    (h : other ∈ trail place parts) :
    ∃ front, front <+: parts ∧ other = place ++ front := by
  induction parts generalizing place with
  | nil => exact ⟨[], List.prefix_rfl, by simpa [trail] using h⟩
  | cons part rest ih =>
      obtain ⟨hpart, hrest⟩ := List.ne_and_not_mem_of_not_mem_cons hdots
      rcases List.mem_cons.1 h with rfl | h
      · exact ⟨[], List.nil_prefix, by simp⟩
      · obtain ⟨front, hfront, rfl⟩ := ih hrest h
        refine ⟨part :: front, List.cons_prefix_cons.2 ⟨rfl, hfront⟩, ?_⟩
        rw [step, if_neg (Ne.symm hpart), List.append_assoc]
        rfl

end Trails

section Trees

variable {s t : Store} {place : Place} {part : String}

/-- The directory above a directory is one. -/
theorem IsTree.dropLast
    (h : s.IsTree)
    (hplace : s.node? place = some .dir) :
    s.node? place.dropLast = some .dir := by
  cases place using List.reverseRecOn with
  | nil => exact hplace
  | append_singleton front part =>
      rw [List.dropLast_concat]
      exact h.parent front part .dir hplace

/-- The current directory and all above it are there. -/
theorem IsTree.node?_of_isHeld
    (h : s.IsTree)
    (hheld : s.isHeld place = true) :
    s.node? place = some .dir := by
  obtain ⟨rest, hrest⟩ := Option.isSome_iff_exists.1 hheld
  have hcurrent := h.current
  rw [Path.afterParts?_eq_some_iff.1 hrest] at hcurrent
  clear hrest hheld
  induction rest using List.reverseRecOn with
  | nil => simpa using hcurrent
  | append_singleton front part ih =>
      rw [← List.append_assoc] at hcurrent
      exact ih (h.parent _ part .dir hcurrent)

/-- Where there is nothing, nothing lies below. -/
theorem IsTree.isHeld_eq_false
    (h : s.IsTree)
    (hplace : s.node? place = none) :
    s.isHeld place = false := by
  by_contra hheld
  simp [h.node?_of_isHeld (by simpa using hheld)] at hplace

/-- In a tree, a part is followed only from a directory. -/
theorem IsTree.follow_eq_ok_iff
    (h : s.IsTree) {next : Place} :
    s.follow place part = .ok next ↔
      s.node? place = some .dir ∧ Path.isLongPart part = false ∧ next = step place part := by
  rw [follow]
  cases hnode : s.node? place with
  | none => simp [h.isHeld_eq_false hnode]
  | some node =>
      cases node with
      | dir =>
          cases hlong : Path.isLongPart part with
          | true => simp
          | false => simp [eq_comm]
      | file content => simp

/-- A file or a directory that is put into a directory keeps the tree a tree. -/
theorem IsTree.putNode
    (h : s.IsTree) {node : Node}
    (hplace : s.node? place = some .dir)
    (hnext : s.node? (place ++ [part]) ≠ some .dir) :
    (s.putNode (place ++ [part]) node).IsTree where
  parent := by
    intro other piece found hfound
    by_cases hsame : other ++ [piece] = place ++ [part]
    · obtain ⟨rfl, -⟩ := List.append_inj' hsame rfl
      rw [node?_putNode_of_ne _ _ (by simp)]
      exact hplace
    · rw [node?_putNode_of_ne _ _ hsame] at hfound
      have hdir := h.parent other piece found hfound
      have hne : other ≠ place ++ [part] := fun heq => hnext (heq ▸ hdir)
      exact (s.node?_putNode_of_ne node hne).trans hdir
  current := by
    have hcurrent := h.current
    have hne : s.current ≠ place ++ [part] := fun heq => hnext (heq ▸ hcurrent)
    exact (s.node?_putNode_of_ne node hne).trans hcurrent

/-- Nothing is there at first but the current directory and those above it. -/
theorem node?_empty_eq_some_iff {current : Place} {node : Node} :
    (empty current).node? place = some node ↔ place <+: current ∧ node = .dir := by
  have hentry : ∀ entry ∈ (empty current).nodes,
      entry.2 = .dir ∧ ∃ n, entry.1 = keyOf (current.take (n + 1)) := by
    intro entry hmem
    obtain ⟨n, -, rfl⟩ := List.mem_map.1 hmem
    exact ⟨rfl, n, rfl⟩
  by_cases hroot : place = []
  · simp [hroot, node?, eq_comm]
  · rw [node?, if_neg hroot]
    constructor
    · intro hget
      obtain ⟨hnode, n, hkey⟩ := hentry _ (Dictionary.mem_of_get? hget)
      obtain rfl := keyOf_inj.1 hkey
      exact ⟨List.take_prefix _ _, hnode⟩
    · rintro ⟨habove, rfl⟩
      have htake := List.prefix_iff_eq_take.1 habove
      have hpos := List.length_pos_iff.2 hroot
      have hmem : (keyOf place, Node.dir) ∈ (empty current).nodes := by
        refine List.mem_map.2 ⟨place.length - 1, ?_, ?_⟩
        · have hle := habove.length_le
          exact List.mem_range.2 (by omega)
        · rw [Nat.sub_add_cancel hpos, ← htake]
      cases hget : (empty current).nodes.get? (keyOf place) with
      | none =>
          have hnot := Dictionary.get?_eq_none_iff.1 hget
          simp [Dictionary.has_of_mem hmem] at hnot
      | some node => exact congrArg some (hentry _ (Dictionary.mem_of_get? hget)).1

/-- A store with nothing but its current directory is a tree. -/
theorem isTree_empty (current : Place) :
    (empty current).IsTree where
  parent place part node h := by
    have habove := (node?_empty_eq_some_iff.1 h).1
    exact node?_empty_eq_some_iff.2 ⟨(List.prefix_append _ _).trans habove, rfl⟩
  current := node?_empty_eq_some_iff.2 ⟨List.prefix_rfl, rfl⟩

end Trees

section Making

variable {s made : Store} {place last : Place} {part : String} {parts front : List String}
  {path : Path}

theorem fileAt?_eq_none_of_dir
    (h : s.node? place = some .dir) :
    s.fileAt? place = none := by
  rw [fileAt?, h]

/-- One part is followed, and the directory is made if there is nothing; or the part cannot be
followed, and then nothing is made. -/
theorem makeBelow_cons_cases
    (h : s.IsTree)
    (hplace : s.node? place = some .dir)
    (anchor : Path.Anchor) (before : List String) (part : String) (rest : List String) :
    (∃ e, s.makeBelow anchor before place (part :: rest) = (s, .error e) ∧
        (Path.isLongPart part = true ∨ s.fileAt? (step place part) ≠ none)) ∨
      Path.isLongPart part = false ∧ s.fileAt? (step place part) = none ∧
        ∃ made, made.IsTree ∧ Grown s made ∧ made.node? (step place part) = some .dir ∧
          (∀ other, other ≠ step place part → made.node? other = s.node? other) ∧
          s.makeBelow anchor before place (part :: rest) =
            made.makeBelow anchor (before ++ [part]) (step place part) rest := by
  rw [makeBelow]
  cases hlong : Path.isLongPart part with
  | true => simp [follow, hplace, hlong]
  | false =>
      have hfollow : s.follow place part = .ok (step place part) :=
        h.follow_eq_ok_iff.2 ⟨hplace, hlong, rfl⟩
      simp only [hfollow]
      cases hnode : s.node? (step place part) with
      | none =>
          -- two dots lead from a directory to a directory
          have hpart : part ≠ ".." := by
            rintro rfl
            simp [step, h.dropLast hplace] at hnode
          have hstep : step place part = place ++ [part] := if_neg hpart
          rw [hstep] at hnode ⊢
          refine .inr ⟨trivial, by rw [fileAt?, hnode], s.putNode (place ++ [part]) .dir,
            h.putNode hplace (by simp [hnode]), .putNode hnode,
            s.node?_putNode_self .dir (by simp), ?_, by simp [hpart]⟩
          exact fun other hother => s.node?_putNode_of_ne .dir hother
      | some node =>
          cases node with
          | dir =>
              exact .inr ⟨trivial, fileAt?_eq_none_of_dir hnode, s, h, .refl s, hnode,
                fun _ _ => rfl, rfl⟩
          | file content => exact .inl ⟨_, rfl, .inr (by simp [fileAt?, hnode])⟩

/-- Making directories keeps the tree a tree. -/
theorem IsTree.makeBelow
    (h : s.IsTree)
    (hplace : s.node? place = some .dir)
    (anchor : Path.Anchor) (before parts : List String) :
    (s.makeBelow anchor before place parts).1.IsTree := by
  induction parts generalizing s before place with
  | nil => exact h
  | cons part rest ih =>
      rcases makeBelow_cons_cases h hplace anchor before part rest with
        ⟨e, heq, -⟩ | ⟨-, -, made, hmade, -, hnext, -, heq⟩
      · rw [heq]
        exact h
      · rw [heq]
        exact ih hmade hnext _

/-- Directories can be made along parts that are not too long, unless a file is in the way. -/
theorem makeBelow_eq_ok_iff
    (h : s.IsTree)
    (hplace : s.node? place = some .dir)
    (anchor : Path.Anchor) (before parts : List String) :
    (s.makeBelow anchor before place parts).2 = .ok () ↔
      (∀ part ∈ parts, Path.isLongPart part = false) ∧
        ∀ other ∈ trail place parts, s.fileAt? other = none := by
  induction parts generalizing s before place with
  | nil => simp [Store.makeBelow, trail, fileAt?_eq_none_of_dir hplace]
  | cons part rest ih =>
      rw [trail, List.forall_mem_cons, List.forall_mem_cons]
      rcases makeBelow_cons_cases h hplace anchor before part rest with
        ⟨e, heq, hcause⟩ | ⟨hlong, hfile, made, hmade, hgrown, hnext, -, heq⟩
      · simp only [heq, reduceCtorEq, false_iff]
        rintro ⟨⟨hlong, -⟩, -, htrail⟩
        rcases hcause with hcause | hcause
        · simp [hlong] at hcause
        · exact hcause (htrail _ (mem_trail_self _ _))
      · rw [heq, ih hmade hnext]
        simp only [hgrown.fileAt?_eq, hlong, fileAt?_eq_none_of_dir hplace, true_and]

/-- Making directories changes nothing off the way. -/
theorem node?_makeBelow_of_not_mem
    (h : s.IsTree)
    (hplace : s.node? place = some .dir)
    (anchor : Path.Anchor) (before : List String) {other : Place}
    (hother : other ∉ trail place parts) :
    (s.makeBelow anchor before place parts).1.node? other = s.node? other := by
  induction parts generalizing s before place with
  | nil => rfl
  | cons part rest ih =>
      have hrest := (List.ne_and_not_mem_of_not_mem_cons hother).2
      rcases makeBelow_cons_cases h hplace anchor before part rest with
        ⟨e, heq, -⟩ | ⟨-, -, made, hmade, -, hnext, hsame, heq⟩
      · rw [heq]
      · rw [heq, ih hmade hnext _ hrest]
        exact hsame other fun hstep => hrest (hstep ▸ mem_trail_self _ _)

/-- Making directories leaves directories all along the way. -/
theorem node?_makeBelow_of_mem
    (h : s.IsTree)
    (hplace : s.node? place = some .dir)
    (anchor : Path.Anchor) (before : List String) {other : Place}
    (hok : (s.makeBelow anchor before place parts).2 = .ok ())
    (hother : other ∈ trail place parts) :
    (s.makeBelow anchor before place parts).1.node? other = some .dir := by
  have hgrown := grown_makeBelow s anchor before place parts
  induction parts generalizing s before place with
  | nil =>
      obtain rfl := List.mem_singleton.1 hother
      exact hplace
  | cons part rest ih =>
      rcases List.mem_cons.1 hother with rfl | hrest
      · rcases hgrown.node other with hnode | ⟨-, hnode⟩
        · rw [hnode, hplace]
        · exact hnode
      · rcases makeBelow_cons_cases h hplace anchor before part rest with
          ⟨e, heq, -⟩ | ⟨-, -, made, hmade, -, hnext, -, heq⟩
        · simp [heq] at hok
        · rw [heq] at hok ⊢
          exact ih hmade hnext _ hok hrest (grown_makeBelow ..)

/-- Where a path leads without anything made on the way, one directory is made at most. -/
theorem makeBelow_of_walk
    (h : s.IsTree)
    (hplace : s.node? place = some .dir)
    (hwalk : s.walk place parts = .ok last)
    (anchor : Path.Anchor) (before : List String) :
    s.makeBelow anchor before place parts =
      match s.node? last with
      | none => (s.putNode last .dir, .ok ())
      | some .dir => (s, .ok ())
      | some (.file _) => (s, .error ⟨.taken, ⟨anchor, before ++ parts⟩⟩) := by
  induction parts generalizing before place with
  | nil =>
      obtain rfl := Except.ok.inj hwalk
      simp only [hplace, Store.makeBelow]
  | cons part rest ih =>
      rw [walk] at hwalk
      cases hfollow : s.follow place part with
      | error fault => simp [hfollow] at hwalk
      | ok next =>
          obtain ⟨-, -, rfl⟩ := h.follow_eq_ok_iff.1 hfollow
          simp only [hfollow] at hwalk
          rw [Store.makeBelow, hfollow]
          by_cases hnext : s.node? (step place part) = some .dir
          · simp only [hnext]
            rw [ih hnext hwalk, List.append_assoc]
            rfl
          · -- the place is no directory, so it is the last one
            cases rest with
            | cons other rest =>
                rw [walk] at hwalk
                split at hwalk
                · simp at hwalk
                · next hother => exact absurd (h.follow_eq_ok_iff.1 hother).1 hnext
            | nil =>
                obtain rfl := Except.ok.inj hwalk
                have hpart : part ≠ ".." := by
                  rintro rfl
                  exact hnext (h.dropLast hplace)
                cases hnode : s.node? (step place part) with
                | none => simp [hnode, hpart, Store.makeBelow]
                | some node =>
                    cases node with
                    | dir => exact absurd hnode hnext
                    | file content => simp [hnode]

/-- What stops a path, other than that something is missing, also stops making directories. -/
theorem makeBelow_of_walk_error {fault : FileFault}
    (h : s.IsTree)
    (hplace : s.node? place = some .dir)
    (hwalk : s.walk place parts = .error fault)
    (hfault : fault ≠ .missing)
    (anchor : Path.Anchor) (before : List String) :
    (s.makeBelow anchor before place parts).2 ≠ .ok () := by
  induction parts generalizing before place with
  | nil => simp [walk] at hwalk
  | cons part rest ih =>
      rw [walk] at hwalk
      rw [Store.makeBelow]
      cases hfollow : s.follow place part with
      | error fault => simp
      | ok next =>
          simp only [hfollow] at hwalk
          cases hnode : s.node? next with
          | none =>
              cases rest with
              | nil => simp [walk] at hwalk
              | cons other rest =>
                  simp [walk, follow, hnode, h.isHeld_eq_false hnode, Ne.symm hfault] at hwalk
          | some node =>
              cases node with
              | dir =>
                  simp only [hnode]
                  exact ih hnode hwalk _
              | file content => simp [hnode]

end Making

section Paths

variable {s made : Store} {path : Path}

theorem IsTree.startOf
    (h : s.IsTree) (path : Path) :
    s.node? (s.startOf path) = some .dir := by
  rw [Store.startOf]
  split
  · exact h.current
  · rfl

/-- A path is located exactly if it has no null character, is not too long, and can be walked. -/
theorem locate_eq_ok_iff {place : Place} :
    s.locate path = .ok place ↔
      path.hasNull = false ∧ path.isLong = false ∧
        s.walk (s.startOf path) path.parts = .ok place := by
  rw [locate]
  cases path.hasNull <;> cases path.isLong <;> simp

/-- To try the last directory first, as if the others were there, changes nothing. -/
theorem makeDirs_eq_ok_iff
    (h : s.IsTree) :
    s.makeDirs path = (made, .ok ()) ↔
      path.hasNull = false ∧ path.isLong = false ∧
        s.makeBelow path.anchor [] (s.startOf path) path.parts = (made, .ok ()) := by
  have hstart := h.startOf path
  rw [makeDirs, makeDir]
  cases hlocate : s.locate path with
  | ok place =>
      obtain ⟨hnull, hlong, hwalk⟩ := locate_eq_ok_iff.1 hlocate
      rw [makeBelow_of_walk h hstart hwalk]
      cases hnode : s.node? place with
      | none => simp [bind, Except.bind, hnode, hnull, hlong]
      | some node =>
          cases node with
          | dir => simp [bind, Except.bind, hnode, hnull, hlong, isDir, lookup, hlocate]
          | file content => simp [bind, Except.bind, hnode, isDir, lookup, hlocate]
  | error fault =>
      have hdir : s.isDir path = false := by simp [isDir, lookup, hlocate, bind, Except.bind]
      rw [locate] at hlocate
      cases hnull : path.hasNull with
      | true =>
          obtain rfl : FileFault.nullCharacter = fault := by simpa [hnull] using hlocate
          simp [bind, Except.bind, hdir]
      | false =>
          cases hlong : path.isLong with
          | true =>
              obtain rfl : FileFault.tooLong = fault := by simpa [hnull, hlong] using hlocate
              simp [bind, Except.bind, hdir]
          | false =>
              have hwalk : s.walk (s.startOf path) path.parts = .error fault := by
                simpa [hnull, hlong] using hlocate
              by_cases hmissing : fault = .missing
              · subst hmissing
                simp [bind, Except.bind]
              · have hfails := makeBelow_of_walk_error h hstart hwalk hmissing path.anchor []
                simp only [bind, Except.bind, true_and]
                constructor
                · intro hmade
                  cases fault <;> simp_all
                · intro hmade
                  exact absurd (congrArg Prod.snd hmade) hfails

end Paths

section Writing

variable {s made t : Store} {path : Path} {front : List String} {last : String}

/-- The last part of a path need not be there. -/
theorem walk_concat {place : Place}
    (hdirs : ∀ other ∈ trail place front, s.node? other = some .dir)
    (hshort : ∀ part ∈ front, Path.isLongPart part = false) :
    s.walk place (front ++ [last]) =
      if Path.isLongPart last then .error .tooLong
      else .ok (step (front.foldl step place) last) := by
  induction front generalizing place with
  | nil =>
      rw [List.nil_append, walk, follow, hdirs place (mem_trail_self _ _)]
      cases Path.isLongPart last <;> rfl
  | cons part front ih =>
      obtain ⟨hpart, hfront⟩ := List.forall_mem_cons.1 hshort
      obtain ⟨hplace, hrest⟩ := List.forall_mem_cons.1 hdirs
      have hfollow : s.follow place part = .ok (step place part) := by
        simp [follow, hplace, hpart]
      rw [List.cons_append, walk, hfollow]
      exact ih hrest hfront

/-- A file can be written in a directory unless its path cannot be used or a directory is there. -/
theorem write_eq_ok_iff
    (hparts : path.parts = front ++ [last])
    (hdirs : ∀ other ∈ trail (s.startOf path) front, s.node? other = some .dir)
    (hshort : ∀ part ∈ front, Path.isLongPart part = false)
    (content : Content) :
    s.write path content = .ok t ↔
      path.hasNull = false ∧ path.isLong = false ∧ Path.isLongPart last = false ∧
        s.node? (s.resolve path) ≠ some .dir ∧
        t = s.putNode (s.resolve path) (.file content) := by
  have hresolve : s.resolve path = step (front.foldl step (s.startOf path)) last := by
    simp [resolve, hparts]
  rw [write, locate, hparts, walk_concat hdirs hshort, ← hresolve]
  cases path.hasNull with
  | true => simp
  | false =>
      cases path.isLong with
      | true => simp
      | false =>
          cases Path.isLongPart last with
          | true => simp
          | false =>
              cases hnode : s.node? (s.resolve path) with
              | none => simp [hnode, eq_comm]
              | some node =>
                  cases node with
                  | dir => simp [hnode]
                  | file other => simp [hnode, eq_comm]

/-- The directories above a path were made, and nothing else. -/
structure Prepared (s : Store) (path : Path) (made : Store) : Prop where
  tree : made.IsTree
  current : made.current = s.current
  way : ∀ place ∈ s.wayTo path, made.node? place = some .dir
  rest : ∀ place, place ∉ s.wayTo path → made.node? place = s.node? place

/-- Once its directories are made, a path is prepared. -/
theorem prepared_of_makeDirs
    (h : s.IsTree)
    (hmade : s.makeDirs path.parent = (made, .ok ())) :
    s.Prepared path made ∧ (∀ part ∈ path.parts.dropLast, Path.isLongPart part = false) ∧
      ∀ place ∈ s.wayTo path, s.fileAt? place = none := by
  obtain ⟨-, -, hbelow⟩ := (makeDirs_eq_ok_iff h).1 hmade
  have hstart := h.startOf path.parent
  obtain rfl : (s.makeBelow path.anchor [] (s.startOf path) path.parts.dropLast).1 = made :=
    congrArg Prod.fst hbelow
  have hok := congrArg Prod.snd hbelow
  refine ⟨⟨h.makeBelow hstart _ _ _, (grown_makeBelow ..).current, ?_, ?_⟩,
    (makeBelow_eq_ok_iff h hstart _ _ _).1 hok⟩
  · exact fun place hplace => node?_makeBelow_of_mem h hstart _ _ hok hplace
  · exact fun place hplace => node?_makeBelow_of_not_mem h hstart _ _ hplace

/-- Writing a file makes its directories first. -/
theorem writeDeep_eq_iff {content : Content} :
    s.writeDeep path content = (t, .ok ()) ↔
      ∃ made, s.makeDirs path.parent = (made, .ok ()) ∧ made.write path content = .ok t := by
  rw [writeDeep]
  rcases s.makeDirs path.parent with ⟨made, e | _⟩
  · simp
  · cases hwrite : made.write path content <;> simp [hwrite]

/-- A prepared file is written unless its path cannot be used or a directory is there. -/
theorem Prepared.write_eq_ok_iff
    (hmade : s.Prepared path made)
    (hparts : path.parts = front ++ [last])
    (hshort : ∀ part ∈ front, Path.isLongPart part = false)
    (content : Content) :
    made.write path content = .ok t ↔
      path.hasNull = false ∧ path.isLong = false ∧ Path.isLongPart last = false ∧
        (s.node? (s.resolve path) ≠ some .dir ∧ s.resolve path ∉ s.wayTo path) ∧
        t = made.putNode (s.resolve path) (.file content) := by
  have hstart : made.startOf path = s.startOf path := by
    simp only [Store.startOf, hmade.current]
  have hway : s.wayTo path = trail (s.startOf path) front := by
    rw [wayTo, hparts, List.dropLast_concat]
  have hdirs : ∀ other ∈ trail (made.startOf path) front, made.node? other = some .dir := by
    rw [hstart, ← hway]
    exact hmade.way
  have hvacant : made.node? (s.resolve path) ≠ some .dir ↔
      s.node? (s.resolve path) ≠ some .dir ∧ s.resolve path ∉ s.wayTo path := by
    by_cases hmem : s.resolve path ∈ s.wayTo path
    · simp [hmem, hmade.way _ hmem]
    · simp [hmem, hmade.rest _ hmem]
  rw [Store.write_eq_ok_iff hparts hdirs hshort, resolve_congr hmade.current, hvacant]

/-- What becomes of a tree in which a file is written at a free path. -/
theorem writeDeep_of_free
    (h : s.IsTree)
    (hparts : path.parts = front ++ [last])
    (hfree : s.Free path) (content : Content) :
    ∃ made, s.Prepared path made ∧
      s.writeDeep path content = (made.putNode (s.resolve path) (.file content), .ok ()) := by
  have hdropLast : path.parts.dropLast = front := by rw [hparts, List.dropLast_concat]
  have hshort := hfree.shortParts
  rw [hparts, List.forall_mem_append, List.forall_mem_singleton] at hshort
  have hbelow : (s.makeBelow path.anchor [] (s.startOf path) path.parts.dropLast).2 = .ok () := by
    refine (makeBelow_eq_ok_iff h (h.startOf path) _ _ _).2 ⟨?_, hfree.clear⟩
    rw [hdropLast]
    exact hshort.1
  have hmade : s.makeDirs path.parent =
      ((s.makeBelow path.anchor [] (s.startOf path) path.parts.dropLast).1, .ok ()) :=
    (makeDirs_eq_ok_iff h).2 ⟨Path.hasNull_parent hfree.nullFree,
      Path.isLong_parent hparts hfree.short, Prod.ext rfl hbelow⟩
  have hprepared := (prepared_of_makeDirs h hmade).1
  refine ⟨_, hprepared, writeDeep_eq_iff.2 ⟨_, hmade, ?_⟩⟩
  exact (hprepared.write_eq_ok_iff hparts hshort.1 content).2
    ⟨hfree.nullFree, hfree.short, hshort.2, hfree.vacant, rfl⟩

/-- A file can be written exactly if its path is free. -/
theorem writeDeep_eq_ok_iff
    (h : s.IsTree)
    (hparts : path.parts = front ++ [last])
    (content : Content) :
    (s.writeDeep path content).2 = .ok () ↔ s.Free path := by
  constructor
  · intro hok
    obtain ⟨made, hmade, hwrite⟩ := writeDeep_eq_iff.1 (Prod.ext rfl hok)
    obtain ⟨hprepared, hshort, hclear⟩ := prepared_of_makeDirs h hmade
    rw [hparts, List.dropLast_concat] at hshort
    obtain ⟨hnull, hlong, hlast, hvacant, -⟩ :=
      (hprepared.write_eq_ok_iff hparts hshort content).1 hwrite
    refine ⟨hnull, hlong, ?_, hclear, hvacant⟩
    rw [hparts, List.forall_mem_append, List.forall_mem_singleton]
    exact ⟨hshort, hlast⟩
  · intro hfree
    obtain ⟨made, -, hwrite⟩ := writeDeep_of_free h hparts hfree content
    rw [hwrite]

/-- A tree stays a tree when a file is written. -/
theorem IsTree.writeDeep
    (h : s.IsTree)
    (hparts : path.parts = front ++ [last])
    (hlast : last ≠ "..")
    (hfree : s.Free path) (content : Content) :
    (s.writeDeep path content).1.IsTree := by
  obtain ⟨made, hmade, hwrite⟩ := writeDeep_of_free h hparts hfree content
  have hresolve : s.resolve path = front.foldl step (s.startOf path) ++ [last] := by
    simp [resolve, hparts, step, hlast]
  have hvacant := hmade.rest _ hfree.vacant.2 ▸ hfree.vacant.1
  rw [hwrite]
  rw [hresolve] at hvacant ⊢
  refine hmade.tree.putNode (hmade.way _ ?_) hvacant
  rw [wayTo, hparts, List.dropLast_concat]
  exact foldl_step_mem_trail _ _

/-- Whether a path is free does not change when a file is written that is not on its way and that
it is not on the way of. -/
theorem free_writeDeep_iff {other : Path}
    (h : s.IsTree)
    (hparts : path.parts = front ++ [last])
    (hfree : s.Free path) (content : Content)
    (hpath : s.resolve path ∉ s.wayTo other)
    (hother : s.resolve other ∉ s.wayTo path) :
    (s.writeDeep path content).1.Free other ↔ s.Free other := by
  obtain ⟨made, hmade, hwrite⟩ := writeDeep_of_free h hparts hfree content
  have hcurrent := s.current_writeDeep path content
  have hresolve := resolve_congr hcurrent other
  have hway := wayTo_congr hcurrent other
  have hclear : ∀ place ∈ s.wayTo other,
      (s.writeDeep path content).1.fileAt? place = s.fileAt? place :=
    fun place hplace => s.fileAt?_writeDeep_of_ne content fun heq => hpath (heq ▸ hplace)
  have hvacant : (s.writeDeep path content).1.node? (s.resolve other) ≠ some .dir ↔
      s.node? (s.resolve other) ≠ some .dir := by
    rw [hwrite]
    by_cases hsame : s.resolve other = s.resolve path
    · have hne : s.resolve path ≠ [] := by
        intro hroot
        exact hfree.vacant.1 (by simp [hroot, node?])
      simp [hsame, node?_putNode_self _ _ hne, hfree.vacant.1]
    · rw [node?_putNode_of_ne _ _ hsame, hmade.rest _ hother]
  constructor
  · rintro ⟨hnull, hlong, hshort, hopen, hnode⟩
    rw [hway] at hopen hnode
    rw [hresolve, hvacant] at hnode
    exact ⟨hnull, hlong, hshort, fun place hplace => hclear place hplace ▸ hopen place hplace,
      hnode⟩
  · rintro ⟨hnull, hlong, hshort, hopen, hnode⟩
    refine ⟨hnull, hlong, hshort, ?_, ?_⟩
    · rw [hway]
      exact fun place hplace => (hclear place hplace).trans (hopen place hplace)
    · rw [hway, hresolve, hvacant]
      exact hnode

end Writing

end Store
end Facade
