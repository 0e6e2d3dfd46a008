import Facade.Proofs.NameResolution

/-!
# What a file calls a type, for all names

Names of types may have dots, and two types may have the same dotted name.  What a type is called
then depends on the last of the types with its dotted name, and on the types that came before for
the name of that one.

**Input.**  Any file, and a type that it refers to.

**Algorithm.**  Types are met in order.  Each takes its name unless somebody owns it, and sets the
text of its dotted name anew.

**Results.**
* `mem_imports_iff_comesFirst`: what is imported.
* `owns_iff_comesFirst`: who owns a name.
* `exists_rawName`: a type is called by the name of the last type with its dotted name if that one
  comes first for it, else by the dotted name.
-/

namespace Facade

namespace Dictionary

variable {κ α : Type} [DecidableEq κ]

theorem get?_ofList_eq_none_iff {entries : List (κ × α)} {key : κ} :
    (ofList entries).get? key = none ↔ ∀ entry ∈ entries, entry.1 ≠ key := by
  induction entries using List.reverseRecOn with
  | nil => simp [ofList, get?]
  | append_singleton front last ih =>
      rw [ofList, List.foldl_append, List.foldl_cons, List.foldl_nil, List.forall_mem_append,
        List.forall_mem_singleton]
      by_cases hkey : last.1 = key
      · rw [hkey, get?_put_self]
        simp
      · rw [get?_put_of_ne _ _ (Ne.symm hkey), and_iff_left hkey]
        exact ih

end Dictionary

namespace Key

/-- The name of a packaged type and its dotted name determine its package. -/
theorem eq_of_name_of_qualified {k l : Key}
    (hpackaged : k.IsPackaged)
    (hname : l.name = k.name)
    (h : l.qualified = k.qualified) :
    l = k := by
  obtain ⟨package, name⟩ := l
  obtain rfl : name = k.name := hname
  by_cases hroot : package = ""
  · subst hroot
    have hname : (Key.mk "" k.name).qualified = k.name := rfl
    have hlength := congrArg List.length (toList_qualified hpackaged)
    rw [← h, hname, List.length_append, List.length_cons] at hlength
    omega
  · have hpackage : (Key.mk package k.name).IsPackaged := hroot
    rw [← String.toList_inj, toList_qualified hpackage, toList_qualified hpackaged,
      List.append_cancel_right_eq, String.toList_inj] at h
    exact congrArg (Key.mk · k.name) h

end Key

namespace Source

namespace Namer

section Imports

variable {package name q w : String} {n : Namer} {k : Key} {ks : List Key} {f : File}

/-- A type is imported when it finds its name free and is of another package. -/
theorem mem_imports_reserve
    (halias : n.aliases.has k.qualified = false) :
    q ∈ (reserve package n k).imports ↔
      q ∈ n.imports ∨ n.reserved.get? k.name = none ∧ IsForeign package k ∧ k.qualified = q := by
  cases howner : n.reserved.get? k.name with
  | none =>
      rw [reserve_of_free halias howner, mem_extended]
      simp
  | some owner =>
      rw [reserve_of_owned halias howner]
      simp

/-- The imports are the types of other packages that are the first to come for a free name. -/
theorem mem_imports_reserveAll
    (halias : ∀ k ∈ ks, n.aliases.has k.qualified = false) :
    q ∈ (ks.foldl (reserve package) n).imports ↔
      q ∈ n.imports ∨ ∃ l, (ks.find? fun m => m.name = l.name) = some l ∧
        n.reserved.get? l.name = none ∧ IsForeign package l ∧ l.qualified = q := by
  induction ks generalizing n with
  | nil => simp
  | cons k rest ih =>
      obtain ⟨hk, hrest⟩ := List.forall_mem_cons.1 halias
      rw [List.foldl_cons, ih (by simpa only [aliases_reserve] using hrest),
        mem_imports_reserve hk, or_assoc]
      refine or_congr_right ?_
      have hstep : ∀ {l : Key}, (reserve package n k).reserved.get? l.name = none ↔
          n.reserved.get? l.name = none ∧ ¬ k.name = l.name := by
        intro l
        rw [get?_reserved_reserve hk, Option.or_eq_none_iff]
        simp
      constructor
      · rintro (⟨hfree, hforeign, hq⟩ | ⟨l, hfind, hfree, hforeign, hq⟩)
        · exact ⟨k, by simp, hfree, hforeign, hq⟩
        · obtain ⟨hfree, hne⟩ := hstep.1 hfree
          exact ⟨l, by simpa [hne] using hfind, hfree, hforeign, hq⟩
      · rintro ⟨l, hfind, hfree, hforeign, hq⟩
        by_cases hname : k.name = l.name
        · obtain rfl : k = l := by simpa [hname] using hfind
          exact .inl ⟨hfree, hforeign, hq⟩
        · exact .inr ⟨l, by simpa [hname] using hfind, hstep.2 ⟨hfree, hname⟩, hforeign, hq⟩

/-- At the start the aliases own their names, and then the types that the file declares. -/
theorem get?_start :
    (start f).reserved.get? name =
      ((Dictionary.ofList (f.aliases.map fun (qualified, short) => (short, qualified))).get?
        name).or (if f.Declares name then some (Key.mk f.package name).qualified else none) :=
  get?_putAllNew fun name => (Key.mk f.package name).qualified

theorem get?_aliases_eq_none_iff :
    (Dictionary.ofList (f.aliases.map fun (qualified, short) => (short, qualified))).get? name =
      none ↔ ∀ entry ∈ f.aliases, entry.2 ≠ name := by
  rw [Dictionary.get?_ofList_eq_none_iff, List.forall_mem_map]

/-- A name is free at the start if it is neither an alias nor a declared type. -/
theorem get?_start_eq_none_iff :
    (start f).reserved.get? name = none ↔
      (∀ entry ∈ f.aliases, entry.2 ≠ name) ∧ ¬ f.Declares name := by
  rw [get?_start, Option.or_eq_none_iff, get?_aliases_eq_none_iff]
  simp

theorem isPackaged_of_mem_unaliased
    (h : k ∈ unaliased f) :
    k.IsPackaged := by
  obtain ⟨s, -, -, rfl, hpackaged⟩ := mem_keys.1 (mem_unaliased.1 h).1
  exact hpackaged

theorem ofFile_eq_foldl_unaliased (f : File) :
    ofFile f = (unaliased f).foldl (reserve f.package) (start f) :=
  (reserveAll_filter (keys f) (start f)).symm

/-- The imports of a file are the types of other packages that come first for their names. -/
theorem mem_imports_iff_comesFirst :
    q ∈ (ofFile f).imports ↔
      ∃ m ∈ unaliased f, m.qualified = q ∧ IsForeign f.package m ∧ f.ComesFirst m := by
  have hstart : (start f).imports = [] := rfl
  rw [ofFile_eq_foldl_unaliased, mem_imports_reserveAll fun k hk => (mem_unaliased.1 hk).2, hstart]
  simp only [List.not_mem_nil, false_or, find?_unaliased_eq_some_iff, get?_start_eq_none_iff]
  refine exists_congr fun m => ?_
  constructor
  · rintro ⟨⟨hm, hleast⟩, ⟨halias, hdeclared⟩, hforeign, hq⟩
    exact ⟨hm, hq, hforeign, halias, fun h => absurd h hdeclared, fun _ => hleast⟩
  · rintro ⟨hm, hq, hforeign, hfirst⟩
    have hdeclared : ¬ f.Declares m.name := fun h => hforeign.1 (hfirst.declared h)
    exact ⟨⟨hm, hfirst.least hdeclared⟩, ⟨hfirst.unaliased, hdeclared⟩, hforeign, hq⟩

/-- A file only imports types that it refers to. -/
theorem exists_reference_of_mem_imports
    (h : q ∈ (ofFile f).imports) :
    ∃ s ∈ f.references, s.qualified = q := by
  obtain ⟨m, hm, rfl, -⟩ := mem_imports_iff_comesFirst.1 h
  obtain ⟨s, hs, -, rfl, -⟩ := mem_keys.1 (mem_unaliased.1 hm).1
  exact ⟨s, hs, rfl⟩

end Imports

section Readings

variable {package q : String} {n : Namer} {k m : Key} {ks : List Key} {f : File} {s : Shape}

/-- A type owns its name exactly if it comes first for it. -/
theorem owns_iff_comesFirst
    (hm : m ∈ unaliased f) :
    (ofFile f).reserved.get? m.name = some m.qualified ↔ f.ComesFirst m := by
  have hpackaged := isPackaged_of_mem_unaliased hm
  rw [reserved_ofFile, get?_start]
  cases hget : (Dictionary.ofList
      (f.aliases.map fun (qualified, short) => (short, qualified))).get? m.name with
  | some owner =>
      -- an alias owns the name, and this type has none
      obtain ⟨entry, hentry, heq⟩ := List.mem_map.1 (Dictionary.mem_of_get?_ofList hget)
      obtain ⟨hname, rfl⟩ := Prod.mk.inj heq
      rw [Option.some_or, Option.some_or, Option.some_inj]
      refine iff_of_false (fun howner => ?_) fun h => h.unaliased entry hentry hname
      have hhas : f.aliases.has entry.1 = true := Dictionary.has_of_mem hentry
      rw [howner, (mem_unaliased.1 hm).2] at hhas
      exact Bool.false_ne_true hhas
  | none =>
      have halias := get?_aliases_eq_none_iff.1 hget
      rw [Option.none_or]
      by_cases hdeclared : f.Declares m.name
      · rw [if_pos hdeclared, Option.some_or, Option.some_inj]
        refine ⟨fun howner => ?_, fun h => by rw [← h.declared hdeclared]⟩
        have hsame : Key.mk f.package m.name = m :=
          Key.eq_of_name_of_qualified hpackaged rfl howner
        exact ⟨halias, fun _ => (congrArg Key.package hsame).symm, absurd hdeclared⟩
      · rw [if_neg hdeclared, Option.none_or, Option.map_eq_some_iff]
        constructor
        · rintro ⟨l, hfind, hl⟩
          have hname : l.name = m.name := by simpa using List.find?_some hfind
          obtain rfl := Key.eq_of_name_of_qualified hpackaged hname hl
          exact ⟨halias, fun h => absurd h hdeclared,
            fun _ => (find?_unaliased_eq_some_iff.1 hfind).2⟩
        · intro h
          exact ⟨m, find?_unaliased_eq_some_iff.2 ⟨hm, h.least hdeclared⟩, rfl⟩

theorem aliases_reserveAll :
    (ks.foldl (reserve package) n).aliases = n.aliases := by
  induction ks generalizing n with
  | nil => rfl
  | cons k rest ih => exact ih.trans aliases_reserve

/-- The names of a file keep its aliases. -/
theorem aliases_ofFile (f : File) :
    (ofFile f).aliases = f.aliases :=
  aliases_reserveAll

theorem reserved_reserveAll_ne_none
    (halias : ∀ k ∈ ks, n.aliases.has k.qualified = false)
    (hm : m ∈ ks) :
    (ks.foldl (reserve package) n).reserved.get? m.name ≠ none := by
  rw [get?_reserved_reserveAll halias]
  intro hnone
  have hfind := Option.map_eq_none_iff.1 (Option.or_eq_none_iff.1 hnone).2
  simpa using List.find?_eq_none.1 hfind m hm

/-- One more type sets the text of its own dotted name. -/
theorem get?_names_reserve
    (halias : n.aliases.has k.qualified = false) :
    (reserve package n k).names.get? q =
      if k.qualified = q then
        some (if (reserve package n k).reserved.get? k.name = some q then k.name else q)
      else n.names.get? q := by
  split
  · next hq =>
      subst hq
      cases howner : n.reserved.get? k.name with
      | none =>
          rw [reserve_of_free halias howner]
          simp only [Dictionary.get?_put_self, if_pos]
      | some owner =>
          rw [reserve_of_owned halias howner]
          simp only [Dictionary.get?_put_self, howner, Option.some_inj]
  · next hq =>
      cases howner : n.reserved.get? k.name with
      | none => rw [reserve_of_free halias howner, Dictionary.get?_put_of_ne _ _ (Ne.symm hq)]
      | some owner =>
          rw [reserve_of_owned halias howner, Dictionary.get?_put_of_ne _ _ (Ne.symm hq)]

/-- The last of the types with a dotted name sets its text. -/
theorem get?_names_reserveAll
    (halias : ∀ k ∈ ks, n.aliases.has k.qualified = false) :
    (ks.foldl (reserve package) n).names.get? q =
      ((ks.filter fun k => k.qualified = q).getLast?.map fun m =>
        if (ks.foldl (reserve package) n).reserved.get? m.name = some q then m.name else q).or
          (n.names.get? q) := by
  induction ks using List.reverseRecOn with
  | nil => simp
  | append_singleton front k ih =>
      obtain ⟨hfront, hk⟩ := List.forall_mem_append.1 halias
      have hk : (front.foldl (reserve package) n).aliases.has k.qualified = false := by
        rw [aliases_reserveAll]
        exact hk k (List.mem_singleton_self k)
      rw [List.foldl_append, List.foldl_cons, List.foldl_nil, get?_names_reserve hk,
        List.filter_append]
      split
      · next hq => simp [hq]
      · next hq =>
          have hrest : [k].filter (fun k => k.qualified = q) = [] := by simpa using hq
          rw [ih hfront, hrest, List.append_nil]
          congr 1
          refine Option.map_congr fun m hm => ?_
          -- the name of a type that was met has an owner, who keeps it
          obtain ⟨owner, howner⟩ := Option.ne_none_iff_exists'.1 (reserved_reserveAll_ne_none hfront
            (List.mem_filter.1 (List.mem_of_getLast? hm)).1)
          rw [get?_reserved_reserve hk, howner, Option.some_or]

/-- A type is called by the name of the last type with its dotted name, if that one comes first for
it, and else by the dotted name. -/
theorem exists_rawName
    (hk : k ∈ unaliased f) :
    ∃ m ∈ unaliased f, m.qualified = k.qualified ∧
      (∀ l ∈ unaliased f, l.qualified = k.qualified → Key.le l m = true) ∧
      (f.ComesFirst m ∧ (ofFile f).rawName k = m.name ∨
        ¬ f.ComesFirst m ∧ (ofFile f).rawName k = k.qualified) := by
  have hmem : k ∈ (unaliased f).filter fun l => l.qualified = k.qualified :=
    List.mem_filter.2 ⟨hk, by simp⟩
  obtain ⟨m, hlast⟩ : ∃ m, ((unaliased f).filter fun l => l.qualified = k.qualified).getLast? =
      some m := ⟨_, List.getLast?_eq_some_getLast (List.ne_nil_of_mem hmem)⟩
  obtain ⟨hm, hq⟩ := List.mem_filter.1 (List.mem_of_getLast? hlast)
  have hq : m.qualified = k.qualified := by simpa using hq
  refine ⟨m, hm, hq, fun l hl hlq => ?_, ?_⟩
  · obtain ⟨front, hfront⟩ := List.getLast?_eq_some_iff.1 hlast
    have hsorted := (pairwise_unaliased f).filter fun l => l.qualified = k.qualified
    have hl : l ∈ (unaliased f).filter fun l => l.qualified = k.qualified :=
      List.mem_filter.2 ⟨hl, by simpa using hlq⟩
    rw [hfront] at hsorted hl
    rcases List.mem_append.1 hl with hl | hl
    · exact (List.pairwise_append.1 hsorted).2.2 l hl m (List.mem_singleton_self m)
    · rw [List.mem_singleton.1 hl]
      exact Key.le_iff.2 le_rfl
  · have hnone : (ofFile f).aliases.get? k.qualified = none := by
      rw [aliases_ofFile]
      exact Dictionary.get?_eq_none_iff.2 (mem_unaliased.1 hk).2
    have hpackaged : ¬ k.package.isEmpty = true := by
      simpa [Key.IsPackaged] using isPackaged_of_mem_unaliased hk
    have hnames : (ofFile f).names.get? k.qualified =
        some (if (ofFile f).reserved.get? m.name = some k.qualified then m.name
          else k.qualified) := by
      rw [ofFile_eq_foldl_unaliased, get?_names_reserveAll fun k hk => (mem_unaliased.1 hk).2,
        hlast]
      rfl
    rw [rawName, hnone, if_neg hpackaged, hnames, Option.getD_some, ← owns_iff_comesFirst hm, hq]
    by_cases howner : (ofFile f).reserved.get? m.name = some k.qualified
    · exact .inl ⟨howner, if_pos howner⟩
    · exact .inr ⟨howner, if_neg howner⟩

/-- A type of the root package is called by its name. -/
theorem rawName_of_unpackaged
    (hroot : k.package = "")
    (halias : f.aliases.has k.qualified = false) :
    (ofFile f).rawName k = k.qualified := by
  have hnone : (ofFile f).aliases.get? k.qualified = none := by
    rw [aliases_ofFile]
    exact Dictionary.get?_eq_none_iff.2 halias
  have hempty : k.package.isEmpty = true := by simp [hroot]
  rw [rawName, hnone, if_pos hempty, Key.qualified, if_pos hempty]

theorem name_of_not_function {n : Namer}
    (h : s.isFunction = false) :
    n.name s = n.rawName s.key ++ Shape.bracketed (n.nameAll s.args) ++ Shape.mark s.nullable := by
  obtain ⟨name, package, args, nullable⟩ := s
  rw [Namer.name, if_neg (by simp [h])]
  rfl

end Readings

end Namer

end Source

end Facade
