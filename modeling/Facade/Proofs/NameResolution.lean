import Facade.Proofs.TypeNames
import Mathlib.Data.Prod.Lex
import Mathlib.Data.String.Basic

/-!
# What a simple name stands for

A simple name in a file is looked up among the imports and aliases of the file, then in the package
of the file, then in the packages that need no import.  Simple names are given out in another order:
to the aliases, to the types that the file declares, and then to the types that it refers to in the
order of their packages.

**Input.**  A file of a package other than the root, whose types have simple names without dots and
whose aliases are different.

**Algorithm.**  A type that owns its simple name either introduces it, or is of the package of the
file, or is of a package that needs no import.  Only the last kind can be shadowed, and only by a
type of the package of the file that came later for the name.

**Results.**
* `reserved_ofFile`: the owner of a simple name, phase by phase.
* `rawName_eq_name_iff_comesFirst`: which of several types is called by a simple name.
* `File.finds_iff_of_packaged`: a type that is called by its simple name is found by it, unless the
  file refers to a type of its own package by the same name.
* `simple_names_found`: the types that are found by their simple names.
-/

namespace Facade

namespace Key

variable {k l : Key}

/-- Keys are ordered by package, then by name. -/
theorem le_iff :
    Key.le k l = true ↔ toLex (k.package, k.name) ≤ toLex (l.package, l.name) := by
  simp only [Key.le, Bool.or_eq_true, Bool.and_eq_true, decide_eq_true_eq, beq_iff_eq,
    Prod.Lex.toLex_le_toLex]

theorem le_antisymm
    (h : Key.le k l = true)
    (h' : Key.le l k = true) :
    k = l := by
  have hsame := (le_iff.1 h).antisymm (le_iff.1 h')
  obtain ⟨hpackage, hname⟩ := Prod.mk.inj (toLex_inj.1 hsame)
  obtain ⟨package, name⟩ := k
  obtain ⟨package', name'⟩ := l
  rw [Key.mk.injEq]
  exact ⟨hpackage, hname⟩

/-- Of two types with the same simple name, the first is of the smaller package. -/
theorem package_lt_of_le
    (h : Key.le k l = true)
    (hne : k.package ≠ l.package) :
    k.package < l.package := by
  rcases Prod.Lex.toLex_le_toLex.1 (le_iff.1 h) with hlt | ⟨heq, -⟩
  · exact hlt
  · exact absurd heq hne

theorem pairwise_mergeSort (ks : List Key) :
    (ks.mergeSort Key.le).Pairwise fun k l => Key.le k l = true := by
  refine List.pairwise_mergeSort ?_ ?_ ks
  · intro a b c hab hbc
    exact le_iff.2 ((le_iff.1 hab).trans (le_iff.1 hbc))
  · intro a b
    rw [Bool.or_eq_true, le_iff, le_iff]
    exact le_total _ _

/-- Of the types with one simple name, only that of the package has its dotted name. -/
theorem qualified_eq_iff {package : String}
    (hpackage : package ≠ "")
    (hk : k.IsPackaged ∧ k.IsPlain) :
    (Key.mk package k.name).qualified = k.qualified ↔ k.package = package := by
  constructor
  · intro h
    have hown : (Key.mk package k.name).IsPackaged ∧ (Key.mk package k.name).IsPlain :=
      ⟨hpackage, hk.2⟩
    exact (congrArg Key.package (qualified_injective hown hk h)).symm
  · rintro rfl
    rfl

end Key

namespace Shape

theorem isFunction_of_package {s : Shape}
    (h : s.package ≠ "kotlin") :
    s.isFunction = false := by
  simp [isFunction, h]

end Shape

namespace Source

namespace File

/-- The file declares a type of the name. -/
def Declares (f : File) (name : String) : Prop :=
  ∃ t ∈ f.types, t.name = name

/-- The file refers to the type. -/
def RefersTo (f : File) (k : Key) : Prop :=
  ∃ s ∈ f.references, s.key = k

/-- The package of the file has a type of the name, as far as the file tells. -/
def HasOwn (f : File) (name : String) : Prop :=
  f.Declares name ∨ f.RefersTo ⟨f.package, name⟩

instance (f : File) (name : String) : Decidable (f.Declares name) :=
  inferInstanceAs (Decidable (∃ t ∈ f.types, t.name = name))

instance (f : File) (k : Key) : Decidable (f.RefersTo k) :=
  inferInstanceAs (Decidable (∃ s ∈ f.references, s.key = k))

instance (f : File) (name : String) : Decidable (f.HasOwn name) :=
  inferInstanceAs (Decidable (f.Declares name ∨ f.RefersTo ⟨f.package, name⟩))

/-- The simple names that the imports of a file introduce, aliases among them, with the dotted names
that they stand for. -/
def introduced (f : File) : Dictionary String String :=
  f.imports.map fun i => (i.name, i.qualified)

/-- What a simple name is found to stand for before the packages that need no import are
searched. -/
def lookup? (f : File) (name : String) : Option String :=
  (f.introduced.get? name).or
    (if f.HasOwn name then some (Key.mk f.package name).qualified else none)

/-- The simple name of a type stands for it. -/
structure Finds (f : File) (k : Key) : Prop where
  /-- What the imports, the aliases and the package of the file have by the name is the type. -/
  found : ∀ q, f.lookup? k.name = some q → q = k.qualified
  /-- If they have nothing, the type needs no import or is in no package. -/
  unclaimed : f.lookup? k.name = none → k.package ∈ Shape.defaultImports ∨ k.package = ""

/-- A type that needs no import is shadowed by a type of the package of the file. -/
structure Shadows (f : File) (k : Key) : Prop where
  implicit : k.package ∈ Shape.defaultImports
  other : k.package ≠ f.package
  refers : f.RefersTo ⟨f.package, k.name⟩

/-- A reference starts with the simple name of the type. -/
def WritesSimply (f : File) (s : Shape) : Prop :=
  (Namer.ofFile f).name s =
    s.name ++ Shape.bracketed ((Namer.ofFile f).nameAll s.args) ++ Shape.mark s.nullable

/-- The type is the first to come for its simple name. -/
structure ComesFirst (f : File) (k : Key) : Prop where
  unaliased : ∀ entry ∈ f.aliases, entry.2 ≠ k.name
  /-- A type that the file declares comes before all others. -/
  declared : f.Declares k.name → k.package = f.package
  least : ¬ f.Declares k.name → ∀ l ∈ Namer.unaliased f, l.name = k.name → Key.le k l = true

end File

namespace Namer

section Owners

variable {package name : String} {n : Namer} {k : Key} {f : File}

/-- Reserving a name only takes it if it is free. -/
theorem get?_reserved_reserve
    (halias : n.aliases.has k.qualified = false) :
    (reserve package n k).reserved.get? name =
      (n.reserved.get? name).or (if k.name = name then some k.qualified else none) := by
  cases howner : n.reserved.get? k.name with
  | none =>
      rw [reserve_of_free halias howner]
      by_cases hname : k.name = name
      · subst hname
        simp [howner, Dictionary.get?_put_self]
      · simp [hname, Dictionary.get?_put_of_ne _ _ (Ne.symm hname)]
  | some owner =>
      rw [reserve_of_owned halias howner]
      by_cases hname : k.name = name
      · subst hname
        simp [howner]
      · simp [hname]

/-- A simple name that is free goes to the first type that comes for it. -/
theorem get?_reserved_reserveAll {ks : List Key}
    (halias : ∀ k ∈ ks, n.aliases.has k.qualified = false) :
    (ks.foldl (reserve package) n).reserved.get? name =
      (n.reserved.get? name).or ((ks.find? fun k => k.name = name).map Key.qualified) := by
  induction ks generalizing n with
  | nil => simp
  | cons k rest ih =>
      obtain ⟨hk, hrest⟩ := List.forall_mem_cons.1 halias
      rw [List.foldl_cons, ih (by simpa only [aliases_reserve] using hrest),
        get?_reserved_reserve hk, Option.or_assoc]
      by_cases hname : k.name = name
      · simp [hname]
      · simp [hname]

/-- A name belongs to an alias or a declared type, and otherwise to the first type referred to. -/
theorem reserved_ofFile :
    (ofFile f).reserved.get? name =
      ((start f).reserved.get? name).or
        (((unaliased f).find? fun k => k.name = name).map Key.qualified) := by
  have hrun : ofFile f = (unaliased f).foldl (reserve f.package) (start f) :=
    (reserveAll_filter (keys f) (start f)).symm
  rw [hrun]
  exact get?_reserved_reserveAll fun k hk => (mem_unaliased.1 hk).2

/-- The types that a file declares come for their names in order. -/
theorem get?_putAllNew {d : Dictionary String String} {types : List TypeDef}
    (owner : String → String) :
    (types.foldl (fun d t => d.putNew t.name (owner t.name)) d).get? name =
      (d.get? name).or (if ∃ t ∈ types, t.name = name then some (owner name) else none) := by
  induction types generalizing d with
  | nil => simp
  | cons t rest ih =>
      rw [List.foldl_cons, ih, Dictionary.get?_putNew, Option.or_assoc]
      by_cases hname : t.name = name
      · subst hname
        simp
      · simp [hname]

theorem get?_start_of_unaliased
    (h : ∀ entry ∈ f.aliases, entry.2 ≠ name) :
    (start f).reserved.get? name =
      if f.Declares name then some (Key.mk f.package name).qualified else none := by
  refine (get?_putAllNew fun name => (Key.mk f.package name).qualified).trans
    (Option.or_eq_right_of_none ?_)
  refine Option.eq_none_iff_forall_ne_some.2 fun q hget => ?_
  obtain ⟨entry, hentry, heq⟩ := List.mem_map.1 (Dictionary.mem_of_get?_ofList hget)
  exact h entry hentry (Prod.mk.inj heq).1

theorem pairwise_unaliased (f : File) :
    (unaliased f).Pairwise fun k l => Key.le k l = true :=
  (Key.pairwise_mergeSort _).filter _

/-- The first type of a name is the least of that name. -/
theorem find?_unaliased_eq_some_iff :
    ((unaliased f).find? fun l => l.name = k.name) = some k ↔
      k ∈ unaliased f ∧ ∀ l ∈ unaliased f, l.name = k.name → Key.le k l = true := by
  have hleast : ∀ {k'}, ((unaliased f).find? fun l => l.name = k.name) = some k' →
      ∀ l ∈ unaliased f, l.name = k.name → l = k' ∨ Key.le k' l = true := by
    intro k' hfind l hl hname
    obtain ⟨-, front, back, happend, hfront⟩ := List.find?_eq_some_iff_append.1 hfind
    have hsorted := pairwise_unaliased f
    rw [happend] at hsorted hl
    rcases List.mem_append.1 hl with hl | hl
    · exact absurd hname (by simpa using hfront l hl)
    · refine (List.mem_cons.1 hl).imp_right fun hl => ?_
      exact (List.pairwise_cons.1 (List.pairwise_append.1 hsorted).2.1).1 l hl
  constructor
  · intro hfind
    refine ⟨List.mem_of_find?_eq_some hfind, fun l hl hname => ?_⟩
    rcases hleast hfind l hl hname with rfl | hle
    · exact Key.le_iff.2 le_rfl
    · exact hle
  · rintro ⟨hk, hall⟩
    cases hfind : (unaliased f).find? fun l => l.name = k.name with
    | none => simpa using List.find?_eq_none.1 hfind k hk
    | some k' =>
        have hname : k'.name = k.name := by simpa using List.find?_some hfind
        rcases hleast hfind k hk rfl with rfl | hle
        · rfl
        · rw [Key.le_antisymm hle (hall k' (List.mem_of_find?_eq_some hfind) hname)]

/-- Which of several types is called by a simple name. -/
theorem rawName_eq_name_iff_comesFirst
    (hpackage : f.package ≠ "")
    (hplain : f.HasPlainNames)
    (hdistinct : f.HasDistinctAliases)
    (hk : k ∈ unaliased f) :
    (ofFile f).rawName k = k.name ↔ f.ComesFirst k := by
  have hk' := mem_keys_well_formed hplain (mem_unaliased.1 hk).1
  rw [rawName_eq_name_iff hplain hk]
  by_cases halias : ∀ entry ∈ f.aliases, entry.2 ≠ k.name
  · rw [reserved_ofFile, get?_start_of_unaliased halias]
    by_cases hdeclared : f.Declares k.name
    · rw [if_pos hdeclared, Option.some_or, Option.some_inj, Key.qualified_eq_iff hpackage hk']
      exact ⟨fun h => ⟨halias, fun _ => h, absurd hdeclared⟩, fun h => h.declared hdeclared⟩
    · rw [if_neg hdeclared, Option.none_or, Option.map_eq_some_iff]
      constructor
      · rintro ⟨l, hfind, hq⟩
        have hl := (mem_unaliased.1 (List.mem_of_find?_eq_some hfind)).1
        obtain rfl := Key.qualified_injective (mem_keys_well_formed hplain hl) hk' hq
        exact ⟨halias, fun h => absurd h hdeclared,
          fun _ => (find?_unaliased_eq_some_iff.1 hfind).2⟩
      · intro h
        exact ⟨k, find?_unaliased_eq_some_iff.2 ⟨hk, h.least hdeclared⟩, rfl⟩
  · -- the name is an alias, of another type since this one has none
    refine ⟨fun howner => ?_, fun h => absurd h.unaliased halias⟩
    push Not at halias
    obtain ⟨⟨q, short⟩, hentry, rfl⟩ := halias
    have hkept := (settled_ofFile hplain).kept (get?_start_of_alias hdistinct hentry)
    obtain rfl := Option.some.inj (hkept.symm.trans howner)
    exact absurd ((mem_unaliased.1 hk).2.symm.trans (Dictionary.has_of_mem hentry)) (by simp)

end Owners

end Namer

section Lookup

open Namer

variable {f : File} {k : Key} {s : Shape} {name q : String}

theorem File.writesSimply_iff
    (h : s.isFunction = false) :
    f.WritesSimply s ↔ (ofFile f).rawName s.key = s.name := by
  obtain ⟨name, package, args, nullable⟩ := s
  rw [File.WritesSimply, Namer.name, if_neg (by simp [h]), String.append_left_inj,
    String.append_left_inj]
  rfl

theorem File.mem_introduced :
    (name, q) ∈ f.introduced ↔
      (q ∈ (ofFile f).imports ∧ importedName q = name) ∨ (q, name) ∈ f.aliases := by
  simp only [File.introduced, List.mem_map, File.mem_imports, Prod.mk.injEq]
  constructor
  · rintro ⟨i, ⟨q, hq, rfl⟩ | ⟨entry, hentry, rfl⟩, rfl, rfl⟩
    · exact .inl ⟨hq, rfl⟩
    · exact .inr hentry
  · rintro (⟨hq, rfl⟩ | hentry)
    · exact ⟨_, .inl ⟨q, hq, rfl⟩, rfl, rfl⟩
    · exact ⟨_, .inr ⟨_, hentry, rfl⟩, rfl, rfl⟩

/-- What is introduced owns its name. -/
theorem File.reserved_of_mem_introduced
    (hplain : f.HasPlainNames)
    (hdistinct : f.HasDistinctAliases)
    (h : (name, q) ∈ f.introduced) :
    (ofFile f).reserved.get? name = some q := by
  rcases File.mem_introduced.1 h with ⟨himport, rfl⟩ | halias
  · exact (reserved_importedName hplain himport).2
  · exact (settled_ofFile hplain).kept (get?_start_of_alias hdistinct halias)

/-- A name that an import introduces stands for nothing else. -/
theorem File.get?_introduced_of_mem
    (hplain : f.HasPlainNames)
    (hdistinct : f.HasDistinctAliases)
    (h : (name, q) ∈ f.introduced) :
    f.introduced.get? name = some q := by
  cases hget : f.introduced.get? name with
  | none =>
      exact absurd (Dictionary.has_of_mem h) (by simp [Dictionary.get?_eq_none_iff.1 hget])
  | some q' =>
      have howner := File.reserved_of_mem_introduced hplain hdistinct (Dictionary.mem_of_get? hget)
      rw [← howner, File.reserved_of_mem_introduced hplain hdistinct h]

theorem File.finds_of_lookup?
    (h : f.lookup? k.name = some k.qualified) :
    f.Finds k where
  found q hq := Option.some.inj (hq.symm.trans h)
  unclaimed hnone := absurd (hnone.symm.trans h) (by simp)

/-- A type that is called by an alias is found. -/
theorem File.finds_of_mem_aliases
    (hplain : f.HasPlainNames)
    (hdistinct : f.HasDistinctAliases)
    (h : (k.qualified, k.name) ∈ f.aliases) :
    f.Finds k := by
  refine File.finds_of_lookup? ?_
  rw [File.lookup?, File.get?_introduced_of_mem hplain hdistinct (File.mem_introduced.2 (.inr h)),
    Option.some_or]

/-- The simple name of a type is introduced when the type is of another package and needs an
import. -/
theorem File.get?_introduced
    (hplain : f.HasPlainNames)
    (hdistinct : f.HasDistinctAliases)
    (hk : k ∈ unaliased f)
    (hsimple : (ofFile f).rawName k = k.name) :
    f.introduced.get? k.name = if IsForeign f.package k then some k.qualified else none := by
  have hk' := mem_keys_well_formed hplain (mem_unaliased.1 hk).1
  split
  · next hforeign =>
      have himport := (mem_imports_iff hplain hk).2 ⟨hsimple, hforeign⟩
      exact File.get?_introduced_of_mem hplain hdistinct
        (File.mem_introduced.2 (.inl ⟨himport, importedName_qualified hk'⟩))
  · next hnear =>
      cases hget : f.introduced.get? k.name with
      | none => rfl
      | some q =>
          -- what is introduced owns the name, so it is the type itself
          exfalso
          have hmem := Dictionary.mem_of_get? hget
          have howner := File.reserved_of_mem_introduced hplain hdistinct hmem
          rw [(rawName_eq_name_iff hplain hk).1 hsimple] at howner
          obtain rfl := Option.some.inj howner
          rcases File.mem_introduced.1 hmem with ⟨himport, -⟩ | hentry
          · exact hnear ((mem_imports_iff hplain hk).1 himport).2
          · exact Bool.false_ne_true
              ((mem_unaliased.1 hk).2.symm.trans (Dictionary.has_of_mem hentry))

/-- A type of a package that is written by its simple name is found exactly if it is not
shadowed. -/
theorem File.finds_iff_of_packaged
    (hpackage : f.package ≠ "")
    (hplain : f.HasPlainNames)
    (hdistinct : f.HasDistinctAliases)
    (hk : k ∈ unaliased f)
    (hsimple : (ofFile f).rawName k = k.name) :
    f.Finds k ↔ ¬ f.Shadows k := by
  have hk' := mem_keys_well_formed hplain (mem_unaliased.1 hk).1
  have hlookup : f.lookup? k.name = Option.or
      (if IsForeign f.package k then some k.qualified else none)
      (if f.HasOwn k.name then some (Key.mk f.package k.name).qualified else none) := by
    rw [File.lookup?, File.get?_introduced hplain hdistinct hk hsimple]
  by_cases hforeign : IsForeign f.package k
  · rw [if_pos hforeign] at hlookup
    exact iff_of_true (File.finds_of_lookup? hlookup)
      fun hshadows => hforeign.2 hshadows.implicit
  · rw [if_neg hforeign, Option.none_or] at hlookup
    by_cases hown : k.package = f.package
    · have hrefers : f.HasOwn k.name := by
        obtain ⟨s, hs, -, rfl, -⟩ := mem_keys.1 (mem_unaliased.1 hk).1
        exact .inr ⟨s, hs, by rw [← hown]⟩
      rw [if_pos hrefers, (Key.qualified_eq_iff hpackage hk').2 hown] at hlookup
      exact iff_of_true (File.finds_of_lookup? hlookup) fun hshadows => hshadows.other hown
    · have himplicit : k.package ∈ Shape.defaultImports := by
        by_contra hnot
        exact hforeign ⟨hown, hnot⟩
      by_cases hrefers : f.HasOwn k.name
      · -- the file does not declare a type of the name, which would have come first for it
        have hfirst := (rawName_eq_name_iff_comesFirst hpackage hplain hdistinct hk).1 hsimple
        have hshadows : f.Shadows k :=
          ⟨himplicit, hown, hrefers.resolve_left fun h => hown (hfirst.declared h)⟩
        rw [if_pos hrefers] at hlookup
        refine iff_of_false (fun hfinds => hown ?_) (not_not.2 hshadows)
        exact (Key.qualified_eq_iff hpackage hk').1 (hfinds.found _ hlookup)
      · rw [if_neg hrefers] at hlookup
        exact iff_of_true
          ⟨fun q hq => absurd (hq.symm.trans hlookup) (by simp), fun _ => .inl himplicit⟩
          fun hshadows => hrefers (.inr hshadows.refers)

theorem File.rawName_of_root
    (hplain : f.HasPlainNames)
    (hroot : k.package = "")
    (halias : f.aliases.has k.qualified = false) :
    (ofFile f).rawName k = k.name := by
  have hnone : (ofFile f).aliases.get? k.qualified = none := by
    rw [(settled_ofFile hplain).aliases]
    exact Dictionary.get?_eq_none_iff.2 halias
  rw [rawName, hnone]
  simp [hroot]

/-- A type of the root package is always called by its simple name, and is found if nothing else
has the name. -/
theorem File.finds_iff_of_root
    (hpackage : f.package ≠ "")
    (hplain : f.HasPlainNames)
    (hname : k.IsPlain)
    (hroot : k.package = "")
    (halias : f.aliases.has k.qualified = false) :
    f.Finds k ↔ f.lookup? k.name = none := by
  have hqualified : k.qualified = k.name := by simp [Key.qualified, hroot]
  refine ⟨fun hfinds => ?_, fun hnone =>
    ⟨fun q hq => absurd (hq.symm.trans hnone) (by simp), fun _ => .inr hroot⟩⟩
  by_contra hsome
  obtain ⟨q, hlookup⟩ := Option.ne_none_iff_exists'.1 hsome
  have hq : q = k.name := (hfinds.found q hlookup).trans hqualified
  rw [File.lookup?, Option.or_eq_some_iff] at hlookup
  rcases hlookup with hget | ⟨-, hown⟩
  · rcases File.mem_introduced.1 (Dictionary.mem_of_get? hget) with ⟨himport, -⟩ | hentry
    · obtain ⟨l, hl, -, -, -, rfl⟩ := (settled_ofFile hplain).imported.1 himport
      have hl' := mem_keys_well_formed hplain (mem_unaliased.1 hl).1
      exact Key.qualified_ne_of_plain hl'.1 hname hq
    · rw [hq, ← hqualified] at hentry
      exact absurd (halias.symm.trans (Dictionary.has_of_mem hentry)) (by simp)
  · obtain ⟨-, hsome⟩ := Option.ite_none_right_eq_some.1 hown
    have hpackaged : (Key.mk f.package k.name).IsPackaged := hpackage
    exact Key.qualified_ne_of_plain hpackaged hname ((Option.some.inj hsome).trans hq)

/-- A type shadows another one only if it came later for the name. -/
theorem File.Shadows.package_lt
    (h : f.Shadows k)
    (hfirst : f.ComesFirst k)
    (hown : ⟨f.package, k.name⟩ ∈ unaliased f) :
    k.package < f.package := by
  have hdeclared : ¬ f.Declares k.name := fun hdeclared => h.other (hfirst.declared hdeclared)
  exact Key.package_lt_of_le (hfirst.least hdeclared _ hown rfl) h.other

/-- The types that are found by their simple names. -/
structure File.NamesFound (f : File) : Prop where
  /-- A type whose alias is its simple name is found. -/
  aliased : ∀ s ∈ f.references, s.isFunction = false → f.aliases.has s.qualified = true →
    f.WritesSimply s → f.Finds s.key
  /-- A type of a package is found unless it is shadowed. -/
  packaged : ∀ s ∈ f.references, s.isFunction = false → s.key.IsPackaged →
    f.aliases.has s.qualified = false → f.WritesSimply s → (f.Finds s.key ↔ ¬ f.Shadows s.key)
  /-- A type of the root package is found if nothing else has its name. -/
  root : ∀ s ∈ f.references, ¬ s.key.IsPackaged → f.aliases.has s.qualified = false →
    f.WritesSimply s ∧ (f.Finds s.key ↔ f.lookup? s.name = none)
  /-- Which types are called by their simple names. -/
  first : ∀ s ∈ f.references, s.isFunction = false → s.key.IsPackaged →
    f.aliases.has s.qualified = false → (f.WritesSimply s ↔ f.ComesFirst s.key)
  /-- In a file whose package comes before those that need no import, and that has no alias for a
  type of its package, no type is shadowed. -/
  early : f.package < "kotlin" →
    (∀ s ∈ f.references, s.package = f.package → f.aliases.has s.qualified = false) →
    ∀ s ∈ f.references, s.isFunction = false → s.key.IsPackaged → f.WritesSimply s →
      f.Finds s.key

theorem Namer.mem_unaliased_of_reference
    (hs : s ∈ f.references)
    (hfunction : s.isFunction = false)
    (hpackaged : s.key.IsPackaged)
    (halias : f.aliases.has s.qualified = false) :
    s.key ∈ unaliased f :=
  mem_unaliased.2 ⟨mem_keys.2 ⟨s, hs, hfunction, rfl, hpackaged⟩, halias⟩

/-- A type that is written by an alias is found. -/
theorem File.finds_of_aliased
    (hplain : f.HasPlainNames)
    (hdistinct : f.HasDistinctAliases)
    (halias : f.aliases.has k.qualified = true)
    (hsimple : (ofFile f).rawName k = k.name) :
    f.Finds k := by
  refine File.finds_of_mem_aliases hplain hdistinct ?_
  cases hget : f.aliases.get? k.qualified with
  | none => exact absurd ((Dictionary.get?_eq_none_iff.1 hget).symm.trans halias) (by simp)
  | some short =>
      have hname : (ofFile f).rawName k = short := by
        refine rawName_of_aliased ?_
        rw [(settled_ofFile hplain).aliases]
        exact hget
      rw [← hsimple, hname]
      exact Dictionary.mem_of_get? hget

theorem File.not_shadows_of_early
    (hearly : f.package < "kotlin")
    (hpackage : f.package ≠ "")
    (hunaliased : ∀ s ∈ f.references, s.package = f.package → f.aliases.has s.qualified = false)
    (hfirst : f.ComesFirst k) :
    ¬ f.Shadows k := by
  intro hshadows
  obtain ⟨s, hs, hkey⟩ := hshadows.refers
  have hs' : s.package = f.package := congrArg Key.package hkey
  have hfunction : s.isFunction = false := Shape.isFunction_of_package (hs' ▸ hearly.ne)
  have hpackaged : s.key.IsPackaged := by
    rw [hkey]
    exact hpackage
  have hown := mem_unaliased_of_reference hs hfunction hpackaged (hunaliased s hs hs')
  rw [hkey] at hown
  have hsmallest : ∀ p ∈ Shape.defaultImports, "kotlin" ≤ p := by decide +kernel
  exact absurd ((hshadows.package_lt hfirst hown).trans hearly)
    (hsmallest k.package hshadows.implicit).not_gt

/-- In a file of a package, a type that is written by its simple name is found by it: always if the
name is its alias, unless it is shadowed if it is of a package, and if nothing else has the name if
it is of the root package. -/
theorem simple_names_found
    (hpackage : f.package ≠ "")
    (hplain : f.HasPlainNames)
    (hdistinct : f.HasDistinctAliases) :
    f.NamesFound where
  aliased s _ hfunction halias hsimple :=
    File.finds_of_aliased hplain hdistinct halias ((File.writesSimply_iff hfunction).1 hsimple)
  packaged s hs hfunction hpackaged halias hsimple :=
    File.finds_iff_of_packaged hpackage hplain hdistinct
      (mem_unaliased_of_reference hs hfunction hpackaged halias)
      ((File.writesSimply_iff hfunction).1 hsimple)
  root s hs hroot halias := by
    have hroot : s.package = "" := not_not.1 hroot
    have hfunction : s.isFunction = false := Shape.isFunction_of_package (by simp [hroot])
    exact ⟨(File.writesSimply_iff hfunction).2 (File.rawName_of_root hplain hroot halias),
      File.finds_iff_of_root hpackage hplain (hplain s hs) hroot halias⟩
  first s hs hfunction hpackaged halias := by
    rw [File.writesSimply_iff hfunction]
    exact rawName_eq_name_iff_comesFirst hpackage hplain hdistinct
      (mem_unaliased_of_reference hs hfunction hpackaged halias)
  early hearly hunaliased s hs hfunction hpackaged hsimple := by
    rw [File.writesSimply_iff hfunction] at hsimple
    cases halias : f.aliases.has s.qualified with
    | true => exact File.finds_of_aliased hplain hdistinct halias hsimple
    | false =>
        have hk := mem_unaliased_of_reference hs hfunction hpackaged halias
        have hfirst := (rawName_eq_name_iff_comesFirst hpackage hplain hdistinct hk).1 hsimple
        exact (File.finds_iff_of_packaged hpackage hplain hdistinct hk hsimple).2
          (File.not_shadows_of_early hearly hpackage hunaliased hfirst)

/-- A file that refers to lists of two packages. -/
def stock : File where
  package := "shop"
  name := "Stock"
  members :=
    [.property
      { name := "labels"
        type := { name := "List", package := "kotlin.collections", args := [.string] } },
     .property { name := "shelves", type := { name := "List", package := "shop" } }]

theorem simple_names_found_of_stock :
    stock.package ≠ "" ∧ stock.HasPlainNames ∧ stock.HasDistinctAliases ∧ stock.NamesFound := by
  have hplain : stock.HasPlainNames := by decide +kernel
  exact ⟨by decide, hplain, by decide, simple_names_found (by decide) hplain (by decide)⟩

/-- The list that needs no import comes first for the simple name, which stands for the other. -/
theorem stock_shadows_list :
    ∃ s ∈ stock.references, s.isFunction = false ∧ stock.WritesSimply s ∧ ¬ stock.Finds s.key := by
  have hpackage : stock.package ≠ "" := by decide
  have hplain : stock.HasPlainNames := by decide +kernel
  have hdistinct : stock.HasDistinctAliases := by decide
  let s : Shape := { name := "List", package := "kotlin.collections", args := [.string] }
  have hs : s ∈ stock.references := by decide +kernel
  have hfunction : s.isFunction = false := by decide +kernel
  have hk : s.key ∈ unaliased stock := mem_unaliased_of_reference hs hfunction (by decide) rfl
  have hfirst : stock.ComesFirst s.key := by
    refine ⟨by simp [stock], fun h => absurd h (by decide), fun _ l hl hname => ?_⟩
    obtain ⟨s', hs', -, rfl, -⟩ := mem_keys.1 (mem_unaliased.1 hl).1
    have hleast : ∀ s' ∈ stock.references, s'.key.name = s.key.name →
        Key.le s.key s'.key = true := by
      decide +kernel
    exact hleast s' hs' hname
  have hsimple := (rawName_eq_name_iff_comesFirst hpackage hplain hdistinct hk).2 hfirst
  have hshadows : stock.Shadows s.key := ⟨by decide, by decide, by decide +kernel⟩
  refine ⟨s, hs, hfunction, (File.writesSimply_iff hfunction).2 hsimple, fun hfinds => ?_⟩
  exact (File.finds_iff_of_packaged hpackage hplain hdistinct hk hsimple).1 hfinds hshadows

end Lookup

end Source

end Facade
