import Facade.Source.Render
import Facade.Proofs.Registration
import Mathlib.Data.List.Basic
import Mathlib.Data.List.Induction

/-!
# How the types of a file are named

Aliases reserve simple names first, then the types that the file declares, then the types that it
refers to, one after the other.  Whoever comes first keeps a simple name; the others are written by
their dotted names.

**Input.**  A file whose types have simple names without dots.

**Results.**
* `settled_ofFile`: who owns a simple name, what every type is called and what is imported, after
  all types were met.
* `rawName_of_mem`: a type is called by its simple name exactly when it owns it.
* `rawName_injective`: no two types have the same name.
* `nodup_names_imports`: no two imports introduce the same simple name, aliases among them.
* `mem_imports_iff`: a type is imported exactly when it is called by its simple name and is neither
  of the package of the file nor of a package that needs no import.
-/

namespace Facade

namespace Dictionary

variable {κ α : Type} [DecidableEq κ]

/-- What is found under a key was put there. -/
theorem mem_of_get? {d : Dictionary κ α} {key : κ} {value : α}
    (h : d.get? key = some value) :
    (key, value) ∈ d := by
  obtain ⟨⟨key', value'⟩, hfind, rfl⟩ := Option.map_eq_some_iff.1 h
  obtain rfl : key' = key := by simpa using List.find?_some hfind
  exact List.mem_of_find?_eq_some hfind

theorem get?_eq_none_iff {d : Dictionary κ α} {key : κ} :
    d.get? key = none ↔ d.has key = false := by
  simp [get?, has]

theorem has_of_mem {d : Dictionary κ α} {key : κ} {value : α}
    (h : (key, value) ∈ d) :
    d.has key = true :=
  has_eq_true_iff.2 (List.mem_map.2 ⟨_, h, rfl⟩)

/-- A key that is there already keeps its value. -/
theorem get?_putNew (d : Dictionary κ α) (key : κ) (value : α) (k : κ) :
    (d.putNew key value).get? k = (d.get? k).or (if key = k then some value else none) := by
  rw [get?, get?, find?_putNew, Option.map_or]
  by_cases hkey : key = k
  · simp [hkey]
  · simp [hkey]

/-- Entries with different keys can all be found. -/
theorem get?_ofList_of_mem {entries : List (κ × α)} {key : κ} {value : α}
    (hnodup : (entries.map Prod.fst).Nodup)
    (h : (key, value) ∈ entries) :
    (ofList entries).get? key = some value := by
  induction entries using List.reverseRecOn with
  | nil => simp at h
  | append_singleton front last ih =>
      rw [List.map_append, List.nodup_append] at hnodup
      obtain ⟨hfront, -, hlast⟩ := hnodup
      rw [ofList, List.foldl_append, List.foldl_cons, List.foldl_nil]
      rcases List.mem_append.1 h with hmem | hmem
      · have hne : key ≠ last.1 :=
          hlast key (List.mem_map_of_mem hmem) last.1 (by simp)
        rw [get?_put_of_ne _ _ hne]
        exact ih hfront hmem
      · obtain rfl := List.mem_singleton.1 hmem
        exact get?_put_self _ _ _

theorem mem_of_get?_ofList {entries : List (κ × α)} {key : κ} {value : α}
    (h : (ofList entries).get? key = some value) :
    (key, value) ∈ entries := by
  induction entries using List.reverseRecOn with
  | nil => simp [ofList, get?] at h
  | append_singleton front last ih =>
      rw [ofList, List.foldl_append, List.foldl_cons, List.foldl_nil] at h
      by_cases hkey : key = last.1
      · subst hkey
        rw [get?_put_self] at h
        obtain rfl := Option.some.inj h
        simp
      · rw [get?_put_of_ne _ _ hkey] at h
        exact List.mem_append_left _ (ih h)

end Dictionary

namespace Key

/-- The type is of a package other than the root. -/
def IsPackaged (k : Key) : Prop :=
  k.package ≠ ""

/-- The simple name has no dot. -/
def IsPlain (k : Key) : Prop :=
  '.' ∉ k.name.toList

instance (k : Key) : Decidable k.IsPackaged :=
  inferInstanceAs (Decidable (k.package ≠ ""))

instance (k : Key) : Decidable k.IsPlain :=
  inferInstanceAs (Decidable ('.' ∉ k.name.toList))

theorem toList_qualified {k : Key}
    (h : k.IsPackaged) :
    k.qualified.toList = k.package.toList ++ '.' :: k.name.toList := by
  have hempty : ¬ k.package.isEmpty = true := by simpa [IsPackaged] using h
  rw [qualified, if_neg hempty]
  simp

/-- The last dot of a dotted name ends the package. -/
theorem cutLast?_qualified {k : Key}
    (hpackaged : k.IsPackaged)
    (hplain : k.IsPlain) :
    Text.cutLast? '.' k.qualified.toList = some (k.package.toList, k.name.toList) := by
  rw [toList_qualified hpackaged, Text.cutLast?_append hplain]

/-- Types of packages with plain names are told apart by their dotted names. -/
theorem qualified_injective {k l : Key}
    (hk : k.IsPackaged ∧ k.IsPlain)
    (hl : l.IsPackaged ∧ l.IsPlain)
    (h : k.qualified = l.qualified) :
    k = l := by
  have hcut := cutLast?_qualified hk.1 hk.2
  rw [h, cutLast?_qualified hl.1 hl.2] at hcut
  obtain ⟨package, name⟩ := k
  obtain ⟨package', name'⟩ := l
  simp only [Option.some.injEq, Prod.mk.injEq, String.toList_inj] at hcut
  rw [hcut.1, hcut.2]

/-- The dotted name of a type of a package is no plain name. -/
theorem qualified_ne_of_plain {k : Key} {name : String}
    (hk : k.IsPackaged)
    (hname : '.' ∉ name.toList) :
    k.qualified ≠ name := by
  rintro rfl
  rw [toList_qualified hk] at hname
  simp at hname

theorem qualified_of_root {k : Key}
    (h : k.package = "") :
    k.qualified = k.name := by
  simp [qualified, h]

/-- The dotted name of a type determines it if its simple name has no dot. -/
theorem qualified_injective_of_plain {k l : Key}
    (hk : k.IsPlain)
    (hl : l.IsPlain)
    (h : k.qualified = l.qualified) :
    k = l := by
  by_cases hkroot : k.package = ""
  · rw [qualified_of_root hkroot] at h
    by_cases hlroot : l.package = ""
    · rw [qualified_of_root hlroot] at h
      obtain ⟨package, name⟩ := k
      obtain ⟨package', name'⟩ := l
      rw [Key.mk.injEq]
      exact ⟨hkroot.trans hlroot.symm, h⟩
    · exact absurd h.symm (qualified_ne_of_plain hlroot hk)
  · by_cases hlroot : l.package = ""
    · rw [qualified_of_root hlroot] at h
      exact absurd h (qualified_ne_of_plain hkroot hl)
    · exact qualified_injective ⟨hkroot, hk⟩ ⟨hlroot, hl⟩ h

end Key

namespace Source

/-- The types that a file refers to have simple names without dots. -/
def File.HasPlainNames (f : File) : Prop :=
  ∀ s ∈ f.references, s.key.IsPlain

/-- No two aliases of a file are the same. -/
def File.HasDistinctAliases (f : File) : Prop :=
  (f.aliases.map Prod.snd).Nodup

instance (f : File) : Decidable f.HasPlainNames :=
  inferInstanceAs (Decidable (∀ s ∈ f.references, s.key.IsPlain))

instance (f : File) : Decidable f.HasDistinctAliases :=
  inferInstanceAs (Decidable (f.aliases.map Prod.snd).Nodup)

/-- The type is neither of the package nor of one that needs no import. -/
def IsForeign (package : String) (k : Key) : Prop :=
  k.package ≠ package ∧ k.package ∉ Shape.defaultImports

instance (package : String) (k : Key) : Decidable (IsForeign package k) :=
  inferInstanceAs (Decidable (k.package ≠ package ∧ k.package ∉ Shape.defaultImports))

namespace Namer

section Run

variable {package : String} {first n : Namer} {done : List Key} {k : Key}

theorem reserve_of_aliased
    (h : n.aliases.has k.qualified = true) :
    reserve package n k = n := by
  rw [reserve, if_pos h]

/-- A type that finds its simple name free takes it, and is imported if it is of another package. -/
theorem reserve_of_free
    (halias : n.aliases.has k.qualified = false)
    (hfree : n.reserved.get? k.name = none) :
    reserve package n k =
      { n with
        reserved := n.reserved.put k.name k.qualified
        imports :=
          if IsForeign package k ∧ k.qualified ∉ n.imports then n.imports ++ [k.qualified]
          else n.imports
        names := n.names.put k.qualified k.name } := by
  rw [reserve, if_neg (by simp [halias])]
  simp only [hfree]
  rfl

/-- A type that finds its simple name taken is called by its dotted name, unless it owns the name
itself. -/
theorem reserve_of_owned {owner : String}
    (halias : n.aliases.has k.qualified = false)
    (howner : n.reserved.get? k.name = some owner) :
    reserve package n k =
      { n with
        names := n.names.put k.qualified
          (if owner = k.qualified then k.name else k.qualified) } := by
  rw [reserve, if_neg (by simp [halias])]
  simp only [howner]

theorem aliases_reserve :
    (reserve package n k).aliases = n.aliases := by
  cases halias : n.aliases.has k.qualified with
  | true => rw [reserve_of_aliased halias]
  | false =>
      cases howner : n.reserved.get? k.name with
      | none => rw [reserve_of_free halias howner]
      | some owner => rw [reserve_of_owned halias howner]

/-- What holds after some types have been met, none of which is written by an alias. -/
structure Settled (package : String) (first : Namer) (done : List Key) (n : Namer) : Prop where
  aliases : n.aliases = first.aliases
  /-- A simple name that is reserved stays with its owner. -/
  kept : ∀ {name owner}, first.reserved.get? name = some owner →
    n.reserved.get? name = some owner
  /-- A simple name that was free belongs to a type that came for it. -/
  owned : ∀ {name owner}, n.reserved.get? name = some owner →
    first.reserved.get? name = some owner ∨ ∃ l ∈ done, l.name = name ∧ l.qualified = owner
  /-- Every type has a name, and it is the simple one when the type owns it. -/
  named : ∀ {l}, l ∈ done →
    ∃ owner, n.reserved.get? l.name = some owner ∧
      n.names.get? l.qualified = some (if owner = l.qualified then l.name else l.qualified)
  /-- The imports are the types of other packages that came first for their simple names. -/
  imported : ∀ {q}, q ∈ n.imports ↔
    ∃ l ∈ done, IsForeign package l ∧ first.reserved.get? l.name = none ∧
      n.reserved.get? l.name = some l.qualified ∧ l.qualified = q
  nodup : n.imports.Nodup

theorem settled_nil
    (h : n.imports = []) :
    Settled package n [] n where
  aliases := rfl
  kept h := h
  owned h := .inl h
  named h := absurd h List.not_mem_nil
  imported := by simp [h]
  nodup := by simp [h]

/-- The imports after one more type, which is left out when it is there or needs no import. -/
theorem mem_extended {isForeign : Prop} [Decidable isForeign] {imports : List String}
    {q q' : String} :
    (q' ∈ if isForeign ∧ q ∉ imports then imports ++ [q] else imports) ↔
      q' ∈ imports ∨ isForeign ∧ q = q' := by
  split
  · next hnew => simp [hnew.1, eq_comm]
  · next hold =>
      rw [iff_self_or]
      rintro ⟨hforeign, rfl⟩
      by_contra hnot
      exact hold ⟨hforeign, hnot⟩

theorem nodup_extended {isForeign : Prop} [Decidable isForeign] {imports : List String}
    {q : String}
    (h : imports.Nodup) :
    (if isForeign ∧ q ∉ imports then imports ++ [q] else imports).Nodup := by
  split
  · next hnew =>
      rw [List.nodup_append]
      refine ⟨h, List.nodup_singleton q, ?_⟩
      rintro q' hq' _ hq rfl
      exact hnew.2 (List.mem_singleton.1 hq ▸ hq')
  · exact h

theorem Settled.owned_later {name owner : String}
    (h : Settled package first done n)
    (howner : n.reserved.get? name = some owner) :
    first.reserved.get? name = some owner ∨
      ∃ l ∈ done ++ [k], l.name = name ∧ l.qualified = owner := by
  refine (h.owned howner).imp_right ?_
  rintro ⟨l, hl, hrest⟩
  exact ⟨l, List.mem_append_left _ hl, hrest⟩

/-- A type that comes first for its simple name. -/
theorem Settled.reserve_free
    (h : Settled package first done n)
    (hinj : ∀ l ∈ done, l.qualified = k.qualified → l = k)
    (halias : n.aliases.has k.qualified = false)
    (hfree : n.reserved.get? k.name = none) :
    Settled package first (done ++ [k]) (reserve package n k) := by
  -- whoever owns a simple name keeps it, since the new name was free
  have hname : ∀ {name owner}, n.reserved.get? name = some owner →
      (n.reserved.put k.name k.qualified).get? name = some owner := by
    intro name owner howner
    have hne : name ≠ k.name := by
      rintro rfl
      exact absurd (hfree.symm.trans howner) (by simp)
    rwa [Dictionary.get?_put_of_ne _ _ hne]
  have hfirst : first.reserved.get? k.name = none := by
    cases howner : first.reserved.get? k.name with
    | none => rfl
    | some owner => exact absurd (hfree.symm.trans (h.kept howner)) (by simp)
  rw [reserve_of_free halias hfree]
  refine ⟨h.aliases, fun howner => hname (h.kept howner), ?owned, ?named, ?imported,
    nodup_extended h.nodup⟩
  case owned =>
    intro name owner howner
    by_cases hk : name = k.name
    · subst hk
      rw [Dictionary.get?_put_self] at howner
      exact .inr ⟨k, by simp, rfl, Option.some.inj howner⟩
    · rw [Dictionary.get?_put_of_ne _ _ hk] at howner
      exact h.owned_later howner
  case named =>
    intro l hl
    rcases List.mem_append.1 hl with hl | hl
    · obtain ⟨owner, howner, hnamed⟩ := h.named hl
      have hne : l.qualified ≠ k.qualified := by
        intro hq
        obtain rfl := hinj l hl hq
        exact absurd (hfree.symm.trans howner) (by simp)
      exact ⟨owner, hname howner, by rwa [Dictionary.get?_put_of_ne _ _ hne]⟩
    · obtain rfl := List.mem_singleton.1 hl
      refine ⟨l.qualified, Dictionary.get?_put_self _ _ _, ?_⟩
      rw [if_pos rfl, Dictionary.get?_put_self]
  case imported =>
    intro q
    rw [mem_extended, h.imported]
    constructor
    · rintro (⟨l, hl, hforeign, hnone, howner, hq⟩ | ⟨hforeign, rfl⟩)
      · exact ⟨l, List.mem_append_left _ hl, hforeign, hnone, hname howner, hq⟩
      · exact ⟨k, by simp, hforeign, hfirst, Dictionary.get?_put_self _ _ _, rfl⟩
    · rintro ⟨l, hl, hforeign, hnone, howner, rfl⟩
      rcases List.mem_append.1 hl with hl | hl
      · obtain ⟨owner, howner', -⟩ := h.named hl
        obtain rfl := Option.some.inj ((hname howner').symm.trans howner)
        exact .inl ⟨l, hl, hforeign, hnone, howner', rfl⟩
      · obtain rfl := List.mem_singleton.1 hl
        exact .inr ⟨hforeign, rfl⟩

/-- A type whose simple name is taken, by itself or by another type. -/
theorem Settled.reserve_owned {owner : String}
    (h : Settled package first done n)
    (hinj : ∀ l ∈ done, l.qualified = k.qualified → l = k)
    (halias : n.aliases.has k.qualified = false)
    (howner : n.reserved.get? k.name = some owner) :
    Settled package first (done ++ [k]) (reserve package n k) := by
  rw [reserve_of_owned halias howner]
  refine ⟨h.aliases, h.kept, h.owned_later, ?named, ?imported, h.nodup⟩
  case named =>
    intro l hl
    by_cases hq : l.qualified = k.qualified
    · have hlk : l = k := by
        rcases List.mem_append.1 hl with hl | hl
        · exact hinj l hl hq
        · exact List.mem_singleton.1 hl
      subst hlk
      exact ⟨owner, howner, Dictionary.get?_put_self _ _ _⟩
    · have hl : l ∈ done := by
        rcases List.mem_append.1 hl with hl | hl
        · exact hl
        · exact absurd (congrArg Key.qualified (List.mem_singleton.1 hl)) hq
      obtain ⟨owner', howner', hnamed⟩ := h.named hl
      exact ⟨owner', howner', by rwa [Dictionary.get?_put_of_ne _ _ hq]⟩
  case imported =>
    intro q
    change q ∈ n.imports ↔ _
    rw [h.imported]
    constructor
    · rintro ⟨l, hl, hrest⟩
      exact ⟨l, List.mem_append_left _ hl, hrest⟩
    · rintro ⟨l, hl, hforeign, hnone, howner', rfl⟩
      rcases List.mem_append.1 hl with hl | hl
      · exact ⟨l, hl, hforeign, hnone, howner', rfl⟩
      · -- a type that owns its simple name and did not at first was met before
        obtain rfl := List.mem_singleton.1 hl
        rcases h.owned howner' with howned | ⟨l', hl', -, hq⟩
        · exact absurd (hnone.symm.trans howned) (by simp)
        · obtain rfl := hinj l' hl' hq
          exact ⟨l', hl', hforeign, hnone, howner', rfl⟩

/-- One more type keeps what is known about the names, whether or not its name is free. -/
theorem Settled.reserve
    (h : Settled package first done n)
    (hinj : ∀ l ∈ done, l.qualified = k.qualified → l = k)
    (halias : first.aliases.has k.qualified = false) :
    Settled package first (done ++ [k]) (reserve package n k) := by
  rw [← h.aliases] at halias
  cases howner : n.reserved.get? k.name with
  | none => exact h.reserve_free hinj halias howner
  | some owner => exact h.reserve_owned hinj halias howner

/-- After any number of types, the names are settled. -/
theorem Settled.reserveAll {ks : List Key}
    (h : Settled package first done n)
    (hinj : ∀ k ∈ done ++ ks, ∀ l ∈ done ++ ks, k.qualified = l.qualified → k = l)
    (halias : ∀ k ∈ ks, first.aliases.has k.qualified = false) :
    Settled package first (done ++ ks) (ks.foldl (Namer.reserve package) n) := by
  induction ks generalizing done n with
  | nil => simpa using h
  | cons k rest ih =>
      have hstep : Settled package first (done ++ [k]) (Namer.reserve package n k) := by
        refine h.reserve ?_ (halias k List.mem_cons_self)
        intro l hl
        exact hinj l (List.mem_append_left _ hl) k (by simp)
      have happend : done ++ k :: rest = done ++ [k] ++ rest := by simp
      rw [happend] at hinj ⊢
      exact ih hstep hinj fun l hl => halias l (List.mem_cons_of_mem _ hl)

/-- Types that are written by an alias leave everything as it is. -/
theorem reserveAll_filter (ks : List Key) (n : Namer) :
    (ks.filter fun k => !n.aliases.has k.qualified).foldl (reserve package) n =
      ks.foldl (reserve package) n := by
  induction ks generalizing n with
  | nil => rfl
  | cons k rest ih =>
      cases halias : n.aliases.has k.qualified with
      | true => simpa [halias, reserve_of_aliased halias] using ih n
      | false => simpa [halias, aliases_reserve] using ih (reserve package n k)

end Run

section Start

variable {f : File}

theorem get?_putAllNew_of_get? {d : Dictionary String String} {types : List TypeDef}
    {owner : TypeDef → String} {name q : String}
    (h : d.get? name = some q) :
    (types.foldl (fun d t => d.putNew t.name (owner t)) d).get? name = some q := by
  induction types generalizing d with
  | nil => exact h
  | cons t rest ih =>
      refine ih ?_
      rw [Dictionary.get?_putNew, h, Option.some_or]

theorem of_get?_putAllNew {d : Dictionary String String} {types : List TypeDef}
    {owner : TypeDef → String} {name q : String}
    (h : (types.foldl (fun d t => d.putNew t.name (owner t)) d).get? name = some q) :
    d.get? name = some q ∨ ∃ t ∈ types, t.name = name ∧ owner t = q := by
  induction types generalizing d with
  | nil => exact .inl h
  | cons t rest ih =>
      rcases ih h with h | ⟨t', ht', hrest⟩
      · rw [Dictionary.get?_putNew, Option.or_eq_some_iff] at h
        rcases h with h | ⟨-, h⟩
        · exact .inl h
        · obtain ⟨hname, howner⟩ := Option.ite_none_right_eq_some.1 h
          exact .inr ⟨t, List.mem_cons_self, hname, Option.some.inj howner⟩
      · exact .inr ⟨t', List.mem_cons_of_mem _ ht', hrest⟩

/-- Aliases come first for their names. -/
theorem get?_start_of_alias {q short : String}
    (hdistinct : f.HasDistinctAliases)
    (h : (q, short) ∈ f.aliases) :
    (start f).reserved.get? short = some q := by
  refine get?_putAllNew_of_get? (Dictionary.get?_ofList_of_mem ?_ ?_)
  · rwa [List.map_map]
  · exact List.mem_map.2 ⟨_, h, rfl⟩

/-- Before any type is met, names belong to aliases and to the types of the file. -/
theorem of_get?_start {name owner : String}
    (h : (start f).reserved.get? name = some owner) :
    (owner, name) ∈ f.aliases ∨
      ∃ t ∈ f.types, t.name = name ∧ (Key.mk f.package t.name).qualified = owner := by
  refine (of_get?_putAllNew h).imp_left ?_
  intro halias
  obtain ⟨entry, hentry, heq⟩ := List.mem_map.1 (Dictionary.mem_of_get?_ofList halias)
  obtain ⟨rfl, rfl⟩ := Prod.mk.inj heq
  exact hentry

end Start

section Names

variable {f : File} {k l : Key}

/-- The keys that are given names are those of the types of packages that the file refers to. -/
theorem mem_keys :
    k ∈ keys f ↔ ∃ s ∈ f.references, s.isFunction = false ∧ s.key = k ∧ k.IsPackaged := by
  rw [keys, List.mem_mergeSort, List.mem_eraseDups, List.mem_map]
  constructor
  · rintro ⟨s, hs, rfl⟩
    obtain ⟨hs, htest⟩ := List.mem_filter.1 hs
    simp only [Bool.and_eq_true, Bool.not_eq_true', String.isEmpty_eq_false_iff] at htest
    exact ⟨s, hs, htest.2, rfl, htest.1⟩
  · rintro ⟨s, hs, hfunction, rfl, hpackaged⟩
    refine ⟨s, List.mem_filter.2 ⟨hs, ?_⟩, rfl⟩
    simpa [hfunction, Key.IsPackaged, Shape.key] using hpackaged

theorem mem_keys_well_formed
    (hplain : f.HasPlainNames)
    (h : k ∈ keys f) :
    k.IsPackaged ∧ k.IsPlain := by
  obtain ⟨s, hs, -, rfl, hpackaged⟩ := mem_keys.1 h
  exact ⟨hpackaged, hplain s hs⟩

/-- The types that a file refers to and does not write by an alias. -/
def unaliased (f : File) : List Key :=
  (keys f).filter fun k => !f.aliases.has k.qualified

/-- The types that compete for simple names are those without an alias. -/
theorem mem_unaliased :
    k ∈ unaliased f ↔ k ∈ keys f ∧ f.aliases.has k.qualified = false := by
  simp [unaliased]

/-- The names of a file are settled. -/
theorem settled_ofFile
    (hplain : f.HasPlainNames) :
    Settled f.package (start f) (unaliased f) (ofFile f) := by
  have hrun : Settled f.package (start f) ([] ++ unaliased f)
      ((unaliased f).foldl (reserve f.package) (start f)) := by
    refine (settled_nil rfl).reserveAll ?_ fun k hk => (mem_unaliased.1 hk).2
    intro k hk l hl
    exact Key.qualified_injective (mem_keys_well_formed hplain (mem_unaliased.1 hk).1)
      (mem_keys_well_formed hplain (mem_unaliased.1 hl).1)
  rwa [unaliased, List.nil_append, show f.aliases = (start f).aliases from rfl,
    reserveAll_filter] at hrun

theorem rawName_of_aliased {n : Namer} {short : String}
    (h : n.aliases.get? k.qualified = some short) :
    n.rawName k = short := by
  simp [rawName, h]

/-- Every type has a name. -/
theorem get?_names_of_mem
    (hplain : f.HasPlainNames)
    (hk : k ∈ unaliased f) :
    (ofFile f).names.get? k.qualified = some ((ofFile f).rawName k) := by
  have hsettled := settled_ofFile hplain
  obtain ⟨hmem, halias⟩ := mem_unaliased.1 hk
  obtain ⟨owner, -, hname⟩ := hsettled.named hk
  have hnone : (ofFile f).aliases.get? k.qualified = none := by
    rw [hsettled.aliases]
    exact Dictionary.get?_eq_none_iff.2 halias
  have hpackaged : ¬ k.package.isEmpty = true := by
    simpa [Key.IsPackaged] using (mem_keys_well_formed hplain hmem).1
  rw [rawName, hnone, if_neg hpackaged, hname]
  rfl

/-- A type is called by its simple name exactly when it owns it. -/
theorem rawName_of_mem
    (hplain : f.HasPlainNames)
    (hk : k ∈ unaliased f) :
    (ofFile f).rawName k =
      if (ofFile f).reserved.get? k.name = some k.qualified then k.name else k.qualified := by
  obtain ⟨owner, howner, hname⟩ := (settled_ofFile hplain).named hk
  rw [get?_names_of_mem hplain hk] at hname
  rw [Option.some.inj hname, howner]
  simp

/-- A type is called by its simple name exactly if it owns it. -/
theorem rawName_eq_name_iff
    (hplain : f.HasPlainNames)
    (hk : k ∈ unaliased f) :
    (ofFile f).rawName k = k.name ↔ (ofFile f).reserved.get? k.name = some k.qualified := by
  rw [rawName_of_mem hplain hk, ite_eq_left_iff, not_imp_comm, imp_iff_right]
  obtain ⟨hpackaged, hname⟩ := mem_keys_well_formed hplain (mem_unaliased.1 hk).1
  exact Key.qualified_ne_of_plain hpackaged hname

/-- A type is called by an alias, by its simple name when it owns it, or by its dotted name. -/
theorem rawName_cases
    (hplain : f.HasPlainNames)
    (hk : k ∈ keys f) :
    (∃ short, (k.qualified, short) ∈ f.aliases ∧ (ofFile f).rawName k = short) ∨
      ((ofFile f).reserved.get? k.name = some k.qualified ∧ (ofFile f).rawName k = k.name) ∨
      (ofFile f).rawName k = k.qualified := by
  cases halias : f.aliases.get? k.qualified with
  | some short =>
      refine .inl ⟨short, Dictionary.mem_of_get? halias, rawName_of_aliased ?_⟩
      rw [(settled_ofFile hplain).aliases]
      exact halias
  | none =>
      have hk : k ∈ unaliased f := mem_unaliased.2 ⟨hk, Dictionary.get?_eq_none_iff.1 halias⟩
      rw [rawName_of_mem hplain hk]
      split
      · next howner => exact .inr (.inl ⟨howner, rfl⟩)
      · exact .inr (.inr rfl)

/-- A type either owns the name it is called by, or is called by its dotted name. -/
theorem owns_or_qualified
    (hplain : f.HasPlainNames)
    (hdistinct : f.HasDistinctAliases)
    (haliases : ∀ entry ∈ f.aliases, '.' ∉ entry.2.toList)
    (hk : k ∈ keys f) :
    ((ofFile f).reserved.get? ((ofFile f).rawName k) = some k.qualified ∧
        '.' ∉ ((ofFile f).rawName k).toList) ∨
      (ofFile f).rawName k = k.qualified := by
  rcases rawName_cases hplain hk with ⟨short, hmem, hname⟩ | ⟨howner, hname⟩ | hname
  · rw [hname]
    exact .inl ⟨(settled_ofFile hplain).kept (get?_start_of_alias hdistinct hmem),
      haliases _ hmem⟩
  · rw [hname]
    exact .inl ⟨howner, (mem_keys_well_formed hplain hk).2⟩
  · exact .inr hname

/-- Different types have different names. -/
theorem rawName_injective
    (hplain : f.HasPlainNames)
    (hdistinct : f.HasDistinctAliases)
    (haliases : ∀ entry ∈ f.aliases, '.' ∉ entry.2.toList)
    (hk : k ∈ keys f)
    (hl : l ∈ keys f)
    (h : (ofFile f).rawName k = (ofFile f).rawName l) :
    k = l := by
  have hk' := mem_keys_well_formed hplain hk
  have hl' := mem_keys_well_formed hplain hl
  refine Key.qualified_injective hk' hl' ?_
  rcases owns_or_qualified hplain hdistinct haliases hk with ⟨hown, hdot⟩ | hname
  · rcases owns_or_qualified hplain hdistinct haliases hl with ⟨hown', -⟩ | hname'
    · rw [h, hown'] at hown
      exact (Option.some.inj hown).symm
    · exact absurd (hname'.symm.trans h.symm) (Key.qualified_ne_of_plain hl'.1 hdot)
  · rcases owns_or_qualified hplain hdistinct haliases hl with ⟨-, hdot'⟩ | hname'
    · exact absurd (hname.symm.trans h) (Key.qualified_ne_of_plain hk'.1 hdot')
    · exact hname.symm.trans (h.trans hname')

end Names

section Imports

variable {f : File} {k : Key}

/-- A type is imported exactly if it is called by its simple name and is of another package. -/
theorem mem_imports_iff
    (hplain : f.HasPlainNames)
    (hk : k ∈ unaliased f) :
    k.qualified ∈ (ofFile f).imports ↔
      (ofFile f).rawName k = k.name ∧ IsForeign f.package k := by
  have hsettled := settled_ofFile hplain
  obtain ⟨hmem, halias⟩ := mem_unaliased.1 hk
  have hk' := mem_keys_well_formed hplain hmem
  rw [rawName_eq_name_iff hplain hk, hsettled.imported]
  constructor
  · rintro ⟨l, hl, hforeign, -, howner, hq⟩
    obtain rfl := Key.qualified_injective
      (mem_keys_well_formed hplain (mem_unaliased.1 hl).1) hk' hq
    exact ⟨howner, hforeign⟩
  · rintro ⟨howner, hforeign⟩
    refine ⟨k, hk, hforeign, ?_, howner, rfl⟩
    cases hfirst : (start f).reserved.get? k.name with
    | none => rfl
    | some owner =>
        -- an owner from the start is the type itself, by an alias or as a type of the file
        exfalso
        obtain rfl := Option.some.inj ((hsettled.kept hfirst).symm.trans howner)
        rcases of_get?_start hfirst with hentry | ⟨t, -, hname, hq⟩
        · exact Bool.false_ne_true (halias.symm.trans (Dictionary.has_of_mem hentry))
        · rw [hname] at hq
          by_cases hpackage : f.package = ""
          · have hroot : (Key.mk f.package k.name).qualified = k.name := by
              simp [Key.qualified, hpackage]
            exact Key.qualified_ne_of_plain hk'.1 hk'.2 (hq.symm.trans hroot)
          · have hsame : Key.mk f.package k.name = k :=
              Key.qualified_injective ⟨hpackage, hk'.2⟩ hk' hq
            exact hforeign.1 (congrArg Key.package hsame).symm

/-- The simple name that an import introduces: what follows the last dot. -/
def importedName (q : String) : String :=
  ((Text.cutLast? '.' q.toList).map fun cut => String.ofList cut.2).getD q

theorem importedName_qualified
    (h : k.IsPackaged ∧ k.IsPlain) :
    importedName k.qualified = k.name := by
  simp [importedName, Key.cutLast?_qualified h.1 h.2]

/-- An import owns the name that it introduces, and nobody owned it at the start. -/
theorem reserved_importedName {q : String}
    (hplain : f.HasPlainNames)
    (h : q ∈ (ofFile f).imports) :
    (start f).reserved.get? (importedName q) = none ∧
      (ofFile f).reserved.get? (importedName q) = some q := by
  obtain ⟨l, hl, -, hnone, howner, rfl⟩ := (settled_ofFile hplain).imported.1 h
  rw [importedName_qualified (mem_keys_well_formed hplain (mem_unaliased.1 hl).1)]
  exact ⟨hnone, howner⟩

end Imports

end Namer

/-- The name that an import introduces. -/
def Import.name (i : Import) : String :=
  i.short?.getD (Namer.importedName i.qualified)

namespace File

variable {f : File} {q short : String}

/-- The imports of a file. -/
def imports (f : File) : List Import :=
  (Namer.ofFile f).importsOf f

/-- The imports of a file are those of its names, and its aliases. -/
theorem mem_imports {i : Import} :
    i ∈ f.imports ↔
      (∃ q ∈ (Namer.ofFile f).imports, i = { qualified := q }) ∨
        ∃ entry ∈ f.aliases, i = { qualified := entry.1, short? := some entry.2 } := by
  simp only [imports, Namer.importsOf, Namer.sortedImports, List.mem_append, List.mem_map,
    List.mem_mergeSort, eq_comm]

/-- A type is imported under its own name exactly if its names need it. -/
theorem plain_mem_imports :
    { qualified := q } ∈ f.imports ↔ q ∈ (Namer.ofFile f).imports := by
  simp [mem_imports]

/-- Every alias is imported. -/
theorem short_mem_imports :
    { qualified := q, short? := some short } ∈ f.imports ↔ (q, short) ∈ f.aliases := by
  simp [mem_imports]

/-- No simple name is introduced twice. -/
theorem nodup_names_imports
    (hplain : f.HasPlainNames)
    (hdistinct : f.HasDistinctAliases) :
    (f.imports.map Import.name).Nodup := by
  have hperm : (Namer.ofFile f).sortedImports.Perm (Namer.ofFile f).imports :=
    List.mergeSort_perm _ _
  have haliases : (f.aliases.mergeSort entryLe).Perm f.aliases := List.mergeSort_perm _ _
  rw [imports, Namer.importsOf, List.map_append, List.map_map, List.map_map, List.nodup_append]
  refine ⟨?_, (haliases.map Prod.snd).nodup_iff.2 hdistinct, ?_⟩
  · refine (hperm.nodup_iff.2 (Namer.settled_ofFile hplain).nodup).map_on ?_
    intro q hq q' hq' hsame
    have howner := (Namer.reserved_importedName hplain (hperm.mem_iff.1 hq)).2
    have howner' := (Namer.reserved_importedName hplain (hperm.mem_iff.1 hq')).2
    have hname : Namer.importedName q = Namer.importedName q' := hsame
    rw [hname, howner'] at howner
    exact (Option.some.inj howner).symm
  · intro name himport name' halias hsame
    obtain ⟨q, hq, rfl⟩ := List.mem_map.1 himport
    obtain ⟨entry, hentry, rfl⟩ := List.mem_map.1 halias
    have hnone := (Namer.reserved_importedName hplain (hperm.mem_iff.1 hq)).1
    have hname : Namer.importedName q = entry.2 := hsame
    rw [hname, Namer.get?_start_of_alias hdistinct (haliases.mem_iff.1 hentry)] at hnone
    exact absurd hnone (by simp)

end File

end Source

end Facade
