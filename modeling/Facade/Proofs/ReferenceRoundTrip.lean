import Facade.Proofs.ReferenceGrammar
import Facade.Proofs.ClassKeys
import Facade.Proofs.OutputPaths

/-!
# Types read back from their readable forms

A type is shown by its dotted name, its arguments between angle brackets and a question mark.  A
type reference is written in the same way, but a name in it may also be a short one or that of a
class of the virtual machine, which stands for another type.

**Input.**  A shape whose names are words, none of which stands for another type; or a text whose
names are made of words.

**Algorithm.**  The readable form is split at its signs, and every name in it is looked up.  A name
that stands for no other type is looked up in vain and keeps its package and its simple name.  The
types that other names stand for are of the packages of Kotlin, which no such name is of.

**Results.**
* `parse_text_of_isCanonical`: a canonical shape is read back from its readable form.
* `typeKey_isCanonical`: every name made of words stands for a canonical type.
* `references_round_trip`: both together, so reading and showing a text once more changes nothing.
-/

namespace Facade

namespace Text

/-- Words joined by dots. -/
def IsDottedName (s : String) : Prop :=
  ∀ segment ∈ splitAt '.' s, IsWord segment

instance (s : String) : Decidable (IsDottedName s) :=
  inferInstanceAs (Decidable (∀ segment ∈ splitAt '.' s, IsWord segment))

/-- The last word of a dotted name can be split off. -/
theorem IsDottedName.append_dot {package name : String}
    (h : IsDottedName (package ++ "." ++ name))
    (hname : '.' ∉ name.toList) :
    IsDottedName package ∧ IsWord name := by
  have hpieces : splitAt '.' (package ++ "." ++ name) = splitAt '.' package ++ [name] := by
    have hchars : (package ++ "." ++ name).toList = package.toList ++ '.' :: name.toList := by simp
    rw [splitAt, hchars, pieces_append_separator, pieces_of_not_mem hname]
    simp [splitAt]
  rw [IsDottedName, hpieces] at h
  exact ⟨fun segment hsegment => h segment (List.mem_append_left _ hsegment), h name (by simp)⟩

end Text

open Text

/-- The name is that of a class which stands for another type. -/
def Shape.IsRewritten (binaryName : String) : Prop :=
  boxed.has binaryName = true ∨ knownClasses.has binaryName = true ∨
    (functionInterface? binaryName).isSome = true

instance (binaryName : String) : Decidable (Shape.IsRewritten binaryName) :=
  inferInstanceAs (Decidable (_ ∨ _ ∨ _))

namespace Key

/-- The type is called by words and its dotted name stands for no other type. -/
structure IsCanonical (k : Key) : Prop where
  package : IsDottedName k.package
  name : IsWord k.name
  kept : ¬ Shape.IsRewritten k.qualified
  long : k.qualified ∉ Reference.shortCollections

instance (k : Key) : Decidable k.IsCanonical :=
  decidable_of_iff
    (IsDottedName k.package ∧ IsWord k.name ∧ ¬ Shape.IsRewritten k.qualified ∧
      k.qualified ∉ Reference.shortCollections)
    ⟨fun ⟨hpackage, hname, hkept, hlong⟩ => ⟨hpackage, hname, hkept, hlong⟩,
      fun h => ⟨h.package, h.name, h.kept, h.long⟩⟩

end Key

/-- The types of a shape are canonical at every depth. -/
def Shape.IsCanonical (s : Shape) : Prop :=
  ∀ u ∈ s.parts, u.key.IsCanonical

instance (s : Shape) : Decidable s.IsCanonical :=
  inferInstanceAs (Decidable (∀ u ∈ s.parts, u.key.IsCanonical))

/-- A shape is canonical exactly if its key is and its arguments are. -/
theorem Shape.isCanonical_iff {s : Shape} :
    s.IsCanonical ↔ s.key.IsCanonical ∧ ∀ a ∈ s.args, a.IsCanonical := by
  obtain ⟨name, package, args, nullable⟩ := s
  simp only [IsCanonical, parts, partsAll_eq_flatMap, List.forall_mem_cons, List.forall_mem_flatMap]

namespace Shape

/-- The packages of the types that other names stand for. -/
def ownPackages : List String :=
  ["kotlin", "kotlin.collections"]

/-- What the tables of names keep to. -/
theorem tables_of_names :
    (primitives.all fun entry => '.' ∉ entry.1.toList) = true ∧
    ((boxed.keys ++ knownClasses.keys).all fun q => !("kotlin".toList).isPrefixOf q.toList) =
      true ∧
    (∀ package ∈ ownPackages, IsDottedName package) ∧
    (∀ entry ∈ primitives ++ boxed, IsWord entry.2 ∧
      (Key.mk "kotlin" entry.2).qualified ∉ Reference.shortCollections) ∧
    (∀ entry ∈ knownClasses, entry.2.package ∈ ownPackages ∧ IsWord entry.2.name ∧
      entry.2.qualified ∉ Reference.shortCollections) ∧
    (Reference.shortCollections.all fun q => !("kotlin.F".toList).isPrefixOf q.toList) = true ∧
    ∀ q ∈ Reference.shortCollections,
      IsWord (String.ofList (q.toList.drop "kotlin.".length)) ∧
        "kotlin.collections." ++ String.ofList (q.toList.drop "kotlin.".length) ∉
          Reference.shortCollections := by
  refine ⟨?_, ?_, ?_, ?_, ?_, ?_, ?_⟩
  all_goals decide +kernel

end Shape

section Names

variable {k : Key}

theorem Key.IsCanonical.isPackaged
    (h : k.IsCanonical) :
    k.IsPackaged :=
  Source.package_ne_of_segments h.package

theorem Key.IsCanonical.keepsName
    (h : k.IsCanonical) :
    Compiled.KeepsName k.qualified := by
  have hkept := h.kept
  simp only [Shape.IsRewritten, not_or, Bool.not_eq_true, Option.isSome_eq_false_iff,
    Option.isNone_iff_eq_none, ← Dictionary.get?_eq_none_iff] at hkept
  obtain ⟨hboxed, hknown, hfunction⟩ := hkept
  have hprimitive : Shape.primitives.get? k.qualified = none := by
    -- the primitive types have no package
    obtain ⟨hplain, -⟩ := Shape.tables_of_names
    rw [Dictionary.get?_eq_none_iff, ← Bool.not_eq_true]
    intro hhas
    obtain ⟨entry, hentry, hname⟩ := List.mem_map.1 (Dictionary.has_eq_true_iff.1 hhas)
    have hdot : '.' ∉ entry.1.toList := by simpa using List.all_eq_true.1 hplain entry hentry
    rw [hname, Key.toList_qualified h.isPackaged] at hdot
    simp at hdot
  exact ⟨by rw [hprimitive, hboxed]; rfl, hknown, hfunction⟩

/-- A canonical type is found under its dotted name. -/
theorem Key.IsCanonical.typeKey_qualified
    (h : k.IsCanonical) :
    Shape.typeKey k.qualified = k := by
  have hname : Compiled.dotted k.name = k.name := by
    have hsign : '$' ∉ k.name.toList := fun hmem =>
      absurd (List.all_eq_true.1 h.name.2 '$' hmem) (by decide)
    simpa using (@Compiled.dotted_eq_iff "" k.name).2 ⟨rfl, hsign⟩
  rw [Shape.typeKey, Compiled.key_ofBinaryName h.keepsName,
    Compiled.ownKey_qualified h.name.plain, hname]

/-- The dotted name of a canonical type is not looked up as another one. -/
theorem Key.IsCanonical.binaryName_qualified
    (h : k.IsCanonical) :
    Reference.binaryName k.qualified = k.qualified := by
  have hdot : '.' ∈ k.qualified.toList := by
    rw [Key.toList_qualified h.isPackaged]
    simp
  simp [Reference.binaryName, hdot, h.long]

theorem Key.IsCanonical.isNameChar_qualified
    (h : k.IsCanonical) :
    k.qualified.toList ≠ [] ∧ ∀ c ∈ k.qualified.toList, Reference.isNameChar c = true := by
  have hdotted : ∀ {c}, isDotted c = true → Reference.isNameChar c = true := by
    intro c hc
    simp only [isDotted, Bool.or_eq_true, beq_iff_eq] at hc
    rcases hc with hc | hc
    · simp [Reference.isNameChar, hc]
    · simp [Reference.isNameChar, hc]
  rw [Key.toList_qualified h.isPackaged]
  refine ⟨by simp, ?_⟩
  intro c hc
  rw [List.mem_append, List.mem_cons] at hc
  rcases hc with hc | rfl | hc
  · exact hdotted (Source.dotted_of_segments h.package c hc)
  · decide
  · exact hdotted (h.name.dotted c hc)

end Names

/-- A dotted name is cut at its last dot. -/
theorem exists_key_of_dotted {name : String}
    (h : IsDottedName name)
    (hdot : '.' ∈ name.toList) :
    ∃ k : Key, name = k.qualified ∧ IsDottedName k.package ∧ IsWord k.name := by
  obtain ⟨after, before, hchars, hafter⟩ := List.eq_append_cons_of_mem (List.mem_reverse.2 hdot)
  have hname : name = String.ofList before.reverse ++ "." ++ String.ofList after.reverse := by
    rw [← String.toList_inj, ← List.reverse_inj, hchars]
    simp
  have hplain : '.' ∉ (String.ofList after.reverse).toList := by simpa using hafter
  rw [hname] at h
  obtain ⟨hpackage, hword⟩ := h.append_dot hplain
  refine ⟨⟨String.ofList before.reverse, String.ofList after.reverse⟩, ?_, hpackage, hword⟩
  rw [hname, Key.qualified, if_neg (by simpa using Source.package_ne_of_segments hpackage)]

section Reading

namespace Reference

/-- A sign ends the text before it. -/
theorem Splits.append_sign {c : Char} {cs rest : List Char} {token : Token}
    {tokens tokens' : List Token}
    (h : Splits cs tokens)
    (hsign : sign? c = some token)
    (hrest : Splits rest tokens') :
    Splits (cs ++ c :: rest) (tokens ++ token :: tokens') :=
  (splits_append_iff (by simpa using isNameChar_of_sign? hsign)).2
    ⟨tokens, token :: tokens', rfl, h, .sign hsign hrest⟩

theorem splits_mark (nullable : Bool) :
    Splits (Shape.mark nullable).toList (questionIf nullable) := by
  cases nullable with
  | false => exact .nil
  | true => exact .sign rfl .nil

/-- The dotted name of a canonical type is one token. -/
theorem splits_qualified {k : Key}
    (h : k.IsCanonical) :
    Splits k.qualified.toList [.name k.qualified] := by
  obtain ⟨hne, hname⟩ := h.isNameChar_qualified
  have hsplits := Splits.name hne hname (by simp) .nil
  rwa [List.append_nil, String.ofList_toList] at hsplits

/-- References side by side, with commas between them. -/
theorem exists_derivesAll_texts {args : List Shape}
    (hne : args ≠ [])
    (h : ∀ a ∈ args, Shape.parse a.text = .ok a) :
    ∃ rs tokens, Splits (", ".intercalate (args.map Shape.text)).toList tokens ∧
      DerivesAll rs tokens ∧ shapes rs = args := by
  induction args with
  | nil => exact absurd rfl hne
  | cons a more ih =>
      obtain ⟨r, ⟨tokens, hsplits, hderives⟩, hshape⟩ :=
        parse_shape_eq_ok_iff.1 (h a List.mem_cons_self)
      cases more with
      | nil =>
          refine ⟨[r], tokens, ?_, .one hderives, by simp [shapes, hshape]⟩
          simpa [String.toList_intercalate] using hsplits
      | cons b more =>
          obtain ⟨rs, tokens', hsplits', hderives', hshapes⟩ :=
            ih (by simp) fun a' ha' => h a' (List.mem_cons_of_mem _ ha')
          refine ⟨r :: rs, tokens ++ .comma :: tokens', ?_, .more hderives hderives',
            by simp [shapes, hshape, hshapes]⟩
          have hblank : isBlank ' ' = true := by decide
          have hcomma : sign? ',' = some .comma := rfl
          have hjoined := hsplits.append_sign hcomma (.blank hblank hsplits')
          simpa [String.toList_intercalate, List.intercalate_cons_cons] using hjoined

/-- A reference by the dotted name of a canonical type. -/
theorem shape_of_isCanonical {k : Key}
    (h : k.IsCanonical) (rs : List Reference) (nullable : Bool) :
    (Reference.mk k.qualified rs nullable).shape = ⟨k.name, k.package, shapes rs, nullable⟩ := by
  have hname : Shape.primitiveName? k.qualified = none := h.keepsName.1
  rw [shape, h.binaryName_qualified, Shape.ofBinaryName_of_declared hname, h.typeKey_qualified]

end Reference

open Reference

/-- A canonical shape is read back from its readable form. -/
theorem Shape.parse_text_of_isCanonical {s : Shape}
    (h : s.IsCanonical) :
    Shape.parse s.text = .ok s := by
  induction s using Shape.induction with
  | step name package args nullable ih =>
      obtain ⟨hkey, hargs⟩ : Key.IsCanonical ⟨package, name⟩ ∧ ∀ a ∈ args, a.IsCanonical :=
        isCanonical_iff.1 h
      rw [parse_shape_eq_ok_iff, text, texts_eq_map]
      by_cases hne : args = []
      · subst hne
        refine ⟨⟨_, [], nullable⟩, ⟨_, ?_, .plain⟩, shape_of_isCanonical hkey [] nullable⟩
        cases nullable with
        | false => simpa [bracketed, mark, questionIf] using splits_qualified hkey
        | true =>
            have hmarked := (splits_qualified hkey).append_sign (c := '?') rfl .nil
            simpa [bracketed, mark, questionIf] using hmarked
      · obtain ⟨rs, tokens, hsplits, hderives, rfl⟩ :=
          exists_derivesAll_texts hne fun a ha => ih a ha (hargs a ha)
        refine ⟨⟨_, rs, nullable⟩, ⟨_, ?_, .generic hderives⟩,
          shape_of_isCanonical hkey rs nullable⟩
        have hclosed := hsplits.append_sign (c := '>') rfl (splits_mark nullable)
        have hopened := (splits_qualified hkey).append_sign (c := '<') rfl hclosed
        simpa [bracketed, hne] using hopened

end Reading

section Lookup

namespace Shape

/-- What a binary name can stand for. -/
theorem typeKey_cases (binaryName : String) :
    (∃ name, primitiveName? binaryName = some name ∧ typeKey binaryName = ⟨"kotlin", name⟩) ∨
      (∃ key, knownClasses.get? binaryName = some key ∧ typeKey binaryName = key) ∨
      (∃ name, functionInterface? binaryName = some name ∧
        typeKey binaryName = ⟨"kotlin", name⟩) ∨
      primitiveName? binaryName = none ∧ ¬ IsRewritten binaryName := by
  cases hprimitive : primitiveName? binaryName with
  | some name =>
      refine .inl ⟨name, rfl, ?_⟩
      rw [typeKey, ofBinaryName_of_primitive hprimitive]
      rfl
  | none =>
      have hboxed := (Option.or_eq_none_iff.1 hprimitive).2
      rw [primitiveName?] at hprimitive
      rw [typeKey, ofBinaryName, hprimitive]
      cases hknown : knownClasses.get? binaryName with
      | some key => exact .inr (.inl ⟨key, rfl, rfl⟩)
      | none =>
          cases hfunction : functionInterface? binaryName with
          | some name => exact .inr (.inr (.inl ⟨name, rfl, rfl⟩))
          | none =>
              rw [Dictionary.get?_eq_none_iff] at hboxed hknown
              simp [IsRewritten, hboxed, hknown, hfunction]

/-- The function interfaces are told by their package and a number. -/
theorem functionInterface?_eq_some {binaryName name : String}
    (h : functionInterface? binaryName = some name) :
    ∃ digits, binaryName.toList = "kotlin.jvm.functions.".toList ++ ("Function".toList ++ digits) ∧
      (Text.readNat? (dropLineEnd digits)).isSome ∧
      name = String.ofList (dropLineEnd ("Function".toList ++ digits)) := by
  simp only [functionInterface?, Option.bind_eq_bind, Option.bind_eq_some_iff,
    Option.some.injEq] at h
  obtain ⟨rest, hrest, digits, hdigits, number, hnumber, rfl⟩ := h
  obtain rfl := afterChars?_eq_some_iff.1 hdigits
  exact ⟨digits, afterChars?_eq_some_iff.1 hrest, by rw [hnumber]; rfl, rfl⟩

/-- No class that stands for another type is of a package of Kotlin. -/
theorem not_isRewritten_of_ownPackages {k : Key}
    (hpackage : k.package ∈ ownPackages)
    (hname : k.IsPlain) :
    ¬ IsRewritten k.qualified := by
  have hpackaged : k.IsPackaged := by
    intro hempty
    rw [hempty] at hpackage
    exact absurd hpackage (by decide)
  obtain ⟨-, htables, -⟩ := tables_of_names
  have hlisted : k.qualified ∉ boxed.keys ++ knownClasses.keys := by
    intro hmem
    have hhead : ("kotlin".toList).isPrefixOf k.qualified.toList = true := by
      rw [Key.toList_qualified hpackaged]
      rw [ownPackages, List.mem_cons, List.mem_singleton] at hpackage
      rcases hpackage with hpackage | hpackage
      · simp [hpackage]
      · simp [hpackage]
    exact absurd (List.all_eq_true.1 htables _ hmem) (by rw [hhead]; simp)
  rw [List.mem_append, not_or] at hlisted
  rintro (hboxed | hknown | hfunction)
  · exact hlisted.1 (Dictionary.has_eq_true_iff.1 hboxed)
  · exact hlisted.2 (Dictionary.has_eq_true_iff.1 hknown)
  · -- the package of the function interfaces goes on where those of Kotlin end
    obtain ⟨name, hsome⟩ := Option.isSome_iff_exists.1 hfunction
    obtain ⟨digits, hchars, -⟩ := functionInterface?_eq_some hsome
    rw [Key.toList_qualified hpackaged] at hchars
    rw [ownPackages, List.mem_cons, List.mem_singleton] at hpackage
    rcases hpackage with hpackage | hpackage
    · rw [hpackage] at hchars
      have hrest : k.name.toList = "jvm.functions.".toList ++ ("Function".toList ++ digits) := by
        simpa using hchars
      exact hname (by simp [hrest])
    · rw [hpackage] at hchars
      simp at hchars

/-- Types of Kotlin are canonical, but for the collections under their short names. -/
theorem isCanonical_of_ownPackages {k : Key}
    (hpackage : k.package ∈ ownPackages)
    (hname : IsWord k.name)
    (hlong : k.qualified ∉ Reference.shortCollections) :
    k.IsCanonical where
  package := by
    obtain ⟨-, -, hall, -⟩ := tables_of_names
    exact hall _ hpackage
  name := hname
  kept := not_isRewritten_of_ownPackages hpackage hname.plain
  long := hlong

/-- The types of the tables are canonical. -/
theorem isCanonical_of_primitiveName? {binaryName name : String}
    (h : primitiveName? binaryName = some name) :
    Key.IsCanonical ⟨"kotlin", name⟩ := by
  obtain ⟨-, -, -, hall, -⟩ := tables_of_names
  have hmem : (binaryName, name) ∈ primitives ++ boxed := by
    rw [primitiveName?, Option.or_eq_some_iff] at h
    rcases h with h | ⟨-, h⟩
    · exact List.mem_append_left _ (Dictionary.mem_of_get? h)
    · exact List.mem_append_right _ (Dictionary.mem_of_get? h)
  obtain ⟨hname, hlong⟩ := hall _ hmem
  exact isCanonical_of_ownPackages List.mem_cons_self hname hlong

theorem isCanonical_of_knownClasses {binaryName : String} {key : Key}
    (h : knownClasses.get? binaryName = some key) :
    key.IsCanonical := by
  obtain ⟨-, -, -, -, hall, -⟩ := tables_of_names
  obtain ⟨hpackage, hname, hlong⟩ := hall _ (Dictionary.mem_of_get? h)
  exact isCanonical_of_ownPackages hpackage hname hlong

theorem dropLineEnd_of_not_mem {cs : List Char}
    (h : '\n' ∉ cs) :
    dropLineEnd cs = cs := by
  unfold dropLineEnd
  split
  · next rest hreverse =>
      exfalso
      exact h (List.mem_reverse.1 (by simp [hreverse]))
  · rfl

/-- A function interface stands for a function type called by a word. -/
theorem isCanonical_of_functionInterface? {binaryName name : String}
    (hdotted : IsDottedName binaryName)
    (h : functionInterface? binaryName = some name) :
    Key.IsCanonical ⟨"kotlin", name⟩ := by
  obtain ⟨digits, hchars, hnumber, hname⟩ := functionInterface?_eq_some h
  have hline : '\n' ∉ digits := by
    intro hmem
    have hmem' : '\n' ∈ binaryName.toList := by simp [hchars, hmem]
    exact absurd (Source.dotted_of_segments hdotted _ hmem') (by decide)
  have hdigits : ∀ c ∈ digits, isDecimal c = true := by
    rw [dropLineEnd_of_not_mem hline, readNat?] at hnumber
    split at hnumber
    · next hall =>
        rw [Bool.and_eq_true, List.all_eq_true] at hall
        exact hall.2
    · simp at hnumber
  have hplain : '.' ∉ ("Function".toList ++ digits) := by
    intro hmem
    rcases List.mem_append.1 hmem with hmem | hmem
    · exact absurd hmem (by decide)
    · exact absurd (hdigits '.' hmem) (by decide)
  have hletters : '\n' ∉ "Function".toList ++ digits := by
    rw [List.mem_append, not_or]
    exact ⟨by decide, hline⟩
  rw [dropLineEnd_of_not_mem hletters] at hname
  have hsplit : binaryName = "kotlin.jvm.functions" ++ "." ++ name := by
    rw [← String.toList_inj, hchars, hname]
    simp
  have hword : IsWord name := by
    rw [hsplit] at hdotted
    exact (hdotted.append_dot (by simpa [hname] using hplain)).2
  refine isCanonical_of_ownPackages List.mem_cons_self hword ?_
  -- no collection is called like a function type
  intro hshort
  have hhead : ("kotlin.F".toList).isPrefixOf (Key.mk "kotlin" name).qualified.toList = true := by
    rw [Key.toList_qualified (by simp [Key.IsPackaged]), hname]
    simp
  obtain ⟨-, -, -, -, -, hnone, -⟩ := tables_of_names
  exact absurd (List.all_eq_true.1 hnone _ hshort) (by rw [hhead]; simp)

/-- A name of words stands for a canonical type, unless it is the short name of a collection or an
unknown name without a package. -/
theorem typeKey_isCanonical_of_dotted {binaryName : String}
    (hdotted : IsDottedName binaryName)
    (hpackage : primitiveName? binaryName = none → ¬ IsRewritten binaryName →
      '.' ∈ binaryName.toList)
    (hlong : binaryName ∉ Reference.shortCollections) :
    (typeKey binaryName).IsCanonical := by
  rcases typeKey_cases binaryName with ⟨name, hname, hkey⟩ | ⟨key, hknown, hkey⟩ |
    ⟨name, hfunction, hkey⟩ | ⟨hprimitive, hkept⟩
  · exact hkey ▸ isCanonical_of_primitiveName? hname
  · exact hkey ▸ isCanonical_of_knownClasses hknown
  · exact hkey ▸ isCanonical_of_functionInterface? hdotted hfunction
  · -- the name stays as it is
    obtain ⟨k, rfl, hpackage, hname⟩ := exists_key_of_dotted hdotted (hpackage hprimitive hkept)
    have hcanonical : k.IsCanonical := ⟨hpackage, hname, hkept, hlong⟩
    rwa [hcanonical.typeKey_qualified]

/-- The collections are found under their short names. -/
theorem typeKey_isCanonical_of_short {name : String}
    (h : name ∈ Reference.shortCollections) :
    (typeKey ("kotlin.collections." ++
      String.ofList (name.toList.drop "kotlin.".length))).IsCanonical := by
  obtain ⟨-, -, -, -, -, -, hall⟩ := tables_of_names
  obtain ⟨hname, hlong⟩ := hall name h
  have hcanonical : Key.IsCanonical
      ⟨"kotlin.collections", String.ofList (name.toList.drop "kotlin.".length)⟩ :=
    isCanonical_of_ownPackages (by simp [ownPackages]) hname hlong
  exact hcanonical.typeKey_qualified.symm ▸ hcanonical

/-- Every name made of words stands for a canonical type. -/
theorem typeKey_isCanonical {name : String}
    (h : IsDottedName name) :
    (typeKey (Reference.binaryName name)).IsCanonical := by
  rw [Reference.binaryName]
  split
  · next hplain =>
      -- a word by itself is a type of Kotlin
      have hword : IsWord name := by
        rw [IsDottedName, splitAt_of_not_mem hplain.1] at h
        exact h name List.mem_cons_self
      split
      · next hmem => exact typeKey_isCanonical_of_short hmem
      · next hlong =>
          have hcanonical : Key.IsCanonical ⟨"kotlin", name⟩ :=
            isCanonical_of_ownPackages List.mem_cons_self hword hlong
          exact hcanonical.typeKey_qualified.symm ▸ hcanonical
  · next hother =>
      split
      · next hmem => exact typeKey_isCanonical_of_short hmem
      · next hlong =>
          refine typeKey_isCanonical_of_dotted h ?_ hlong
          -- a name without a package is that of a primitive type or of no value
          intro hprimitive hkept
          by_contra hdot
          refine hother ⟨hdot, ?_, ?_⟩
          · exact Dictionary.get?_eq_none_iff.1 (Option.or_eq_none_iff.1 hprimitive).1
          · rintro rfl
            exact hkept (.inr (.inl (by decide +kernel)))

theorem key_ofBinaryName (binaryName : String) (args : List Shape) (nullable : Bool) :
    (ofBinaryName binaryName args nullable).key = typeKey binaryName := by
  cases h : primitiveName? binaryName with
  | some name => rw [typeKey, ofBinaryName_of_primitive h, ofBinaryName_of_primitive h]; rfl
  | none => rw [ofBinaryName_of_declared h]; rfl

theorem args_ofBinaryName_subset (binaryName : String) (args : List Shape) (nullable : Bool) :
    (ofBinaryName binaryName args nullable).args ⊆ args := by
  cases h : primitiveName? binaryName with
  | some name => rw [ofBinaryName_of_primitive h]; exact List.nil_subset _
  | none => rw [ofBinaryName_of_declared h]; exact List.Subset.refl _

end Shape

namespace Reference

/-- The names of the tokens are made of words. -/
def HasDottedNames (tokens : List Token) : Prop :=
  ∀ name, Token.name name ∈ tokens → IsDottedName name

mutual

/-- What is read from dotted names is canonical, by induction over the reference. -/
theorem isCanonical_of_derives : (r : Reference) → {tokens : List Token} → Derives r tokens →
    HasDottedNames tokens → r.shape.IsCanonical
  | ⟨name, args, nullable⟩, _, h, hnames => by
      have hkey : ∀ ss : List Shape, (∀ s ∈ ss, s.IsCanonical) → IsDottedName name →
          (Shape.ofBinaryName (binaryName name) ss nullable).IsCanonical := by
        intro ss hss hname
        rw [Shape.isCanonical_iff, Shape.key_ofBinaryName]
        exact ⟨Shape.typeKey_isCanonical hname,
          fun a ha => hss a (Shape.args_ofBinaryName_subset _ _ _ ha)⟩
      rw [shape]
      cases h with
      | plain => exact hkey [] (by simp) (hnames name (by simp))
      | generic hargs =>
          refine hkey _ (isCanonical_of_derivesAll args hargs ?_) (hnames name (by simp))
          intro name' hname'
          exact hnames name' (by simp [hname'])

theorem isCanonical_of_derivesAll : (rs : List Reference) → {tokens : List Token} →
    DerivesAll rs tokens → HasDottedNames tokens → ∀ s ∈ shapes rs, s.IsCanonical
  | [], _, h, _ => by simp [shapes]
  | r :: rest, _, h, hnames => by
      rw [shapes, List.forall_mem_cons]
      cases h with
      | one hr => exact ⟨isCanonical_of_derives r hr hnames, by simp [shapes]⟩
      | more hr hrest =>
          refine ⟨isCanonical_of_derives r hr ?_, isCanonical_of_derivesAll rest hrest ?_⟩
          · intro name hname
            exact hnames name (by simp [hname])
          · intro name hname
            exact hnames name (by simp [hname])

end

/-- Canonical shapes are read back from their readable forms, and only canonical shapes are read
from texts whose names are made of words. -/
theorem references_round_trip :
    (∀ s : Shape, s.IsCanonical → Shape.parse s.text = .ok s) ∧
      ∀ {text : String} {tokens : List Token} {t : Shape}, Shape.parse text = .ok t →
        Splits text.toList tokens → HasDottedNames tokens →
          t.IsCanonical ∧ Shape.parse t.text = .ok t := by
  refine ⟨fun s h => Shape.parse_text_of_isCanonical h, ?_⟩
  intro text tokens t h hsplits hnames
  obtain ⟨r, ⟨tokens', hsplits', hderives⟩, rfl⟩ := parse_shape_eq_ok_iff.1 h
  obtain rfl := hsplits.unique hsplits'
  have hcanonical := isCanonical_of_derives r hderives hnames
  exact ⟨hcanonical, Shape.parse_text_of_isCanonical hcanonical⟩

/-- A nullable box of a number and of a list that may be missing. -/
def box : Shape :=
  { name := "Box", package := "com.example", args := [.long, .listOf .long true], nullable := true }

theorem references_round_trip_of_box :
    box.IsCanonical ∧ Shape.parse box.text = .ok box ∧
      ∃ t, Shape.parse "com.example.Box < java.lang.Long, List<long>? >?" = .ok t ∧
        t.IsCanonical ∧ Shape.parse t.text = .ok t := by
  have hcanonical : box.IsCanonical := by decide +kernel
  have hparse : Shape.parse "com.example.Box < java.lang.Long, List<long>? >?" = .ok box := by
    decide +kernel
  have hsplits : Splits "com.example.Box < java.lang.Long, List<long>? >?".toList
      [.name "com.example.Box", .opening, .name "java.lang.Long", .comma, .name "List", .opening,
        .name "long", .closing, .question, .closing, .question] :=
    scan_eq_some_iff.1 (by decide +kernel)
  refine ⟨hcanonical, references_round_trip.1 box hcanonical, box, hparse, ?_⟩
  refine references_round_trip.2 hparse hsplits ?_
  intro name hname
  simp only [List.mem_cons, Token.name.injEq, reduceCtorEq, List.not_mem_nil, false_or,
    or_false] at hname
  rcases hname with rfl | rfl | rfl | rfl
  all_goals decide +kernel

end Reference

end Lookup

end Facade
