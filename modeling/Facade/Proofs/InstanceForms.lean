import Facade.Discovery.Spec
import Facade.Proofs.ReferenceGrammar
import Mathlib.Data.List.TakeWhile
import Mathlib.Data.List.DropRight

/-!
# Texts that ask for an instantiation

The form `Name=pkg.Class<Arg, ...>` is read in pieces: the name before the first equals sign, the
class before the first opening bracket, and the type arguments as those of a type `Generic`.  The
class is taken as it is, and a question mark after the closing bracket belongs to the type
`Generic`, of which only the arguments are kept.

**Input.**  A text.

**Algorithm.**  An equals sign is neither a blank nor part of an identifier, and an opening bracket
is no blank; so the two cuts are where the form has them, and trimming the pieces removes the blanks
around the parts.

**Results.**
* `parse_generic_eq_ok_iff`: the type arguments that are read after an opening bracket.
* `parse_eq_ok_iff`: a text asks for an instantiation exactly if it has the form, with any text for
  the class and an optional question mark at the end.
* `instances_read_by_form`: which of these texts have the form as it is documented.
-/

namespace Facade

namespace Text

section Blanks

variable {core cs : List Char}

/-- A text with blanks around it. -/
def Padded (core cs : List Char) : Prop :=
  ∃ left right, (∀ c ∈ left, isBlank c = true) ∧ (∀ c ∈ right, isBlank c = true) ∧
    cs = left ++ core ++ right

/-- A text that neither starts nor ends with a blank. -/
def IsTrimmed (cs : List Char) : Prop :=
  (∀ c ∈ cs.head?, isBlank c = false) ∧ ∀ c ∈ cs.getLast?, isBlank c = false

theorem dropWhile_append_cons {p : Char → Bool} {c : Char}
    (h : p c = false) (before after : List Char) :
    (before ++ c :: after).dropWhile p = before.dropWhile p ++ c :: after := by
  rw [List.dropWhile_append, List.dropWhile_cons_of_neg (by simp [h])]
  split
  · next hempty => rw [List.isEmpty_iff.1 hempty, List.nil_append]
  · rfl

theorem dropWhile_of_head? {p : Char → Bool}
    (h : ∀ c ∈ cs.head?, p c = false) :
    cs.dropWhile p = cs := by
  cases cs with
  | nil => rfl
  | cons c rest => rw [List.dropWhile_cons_of_neg (by simp [h c rfl])]

theorem head?_dropWhile {p : Char → Bool} :
    ∀ c ∈ (cs.dropWhile p).head?, p c = false := by
  intro c hc
  have hnot := List.head?_dropWhile_not p cs
  rw [hc] at hnot
  simpa using hnot

/-- Trimming takes the blanks away and nothing else. -/
theorem stripChars_of_padded
    (h : Padded core cs)
    (htrimmed : IsTrimmed core) :
    stripChars cs = core := by
  obtain ⟨left, right, hleft, hright, rfl⟩ := h
  rw [stripChars, trimEndChars, List.append_assoc, List.dropWhile_append_of_pos hleft]
  cases core with
  | nil => simp [List.dropWhile_eq_nil_iff.2 hright]
  | cons c rest =>
      have hright' : ∀ c ∈ right.reverse, isBlank c = true := by simpa using hright
      have hlast : ∀ d ∈ (c :: rest).reverse.head?, isBlank d = false := by
        rw [List.head?_reverse]
        exact htrimmed.2
      have hfirst : ∀ d ∈ (c :: rest ++ right).head?, isBlank d = false := htrimmed.1
      rw [dropWhile_of_head? hfirst, List.reverse_append, List.dropWhile_append_of_pos hright',
        dropWhile_of_head? hlast, List.reverse_reverse]

/-- A text is its trimmed part with blanks around it. -/
theorem padded_stripChars (cs : List Char) :
    Padded (stripChars cs) cs := by
  refine ⟨cs.takeWhile isBlank, ((cs.dropWhile isBlank).reverse.takeWhile isBlank).reverse,
    fun c hc => List.mem_takeWhile_imp hc,
    fun c hc => List.mem_takeWhile_imp (List.mem_reverse.1 hc), ?_⟩
  rw [stripChars, trimEndChars, List.append_assoc, ← List.reverse_append,
    List.takeWhile_append_dropWhile, List.reverse_reverse, List.takeWhile_append_dropWhile]

theorem isTrimmed_stripChars (cs : List Char) :
    IsTrimmed (stripChars cs) := by
  constructor
  · -- trimming the end keeps the start
    intro c hc
    obtain ⟨right, hright⟩ : stripChars cs <+: cs.dropWhile isBlank := List.rdropWhile_prefix _ _
    obtain ⟨rest, hrest⟩ := List.head?_eq_some_iff.1 hc
    have hhead : c ∈ (cs.dropWhile isBlank).head? := by
      rw [← hright, hrest]
      rfl
    exact head?_dropWhile c hhead
  · intro c hc
    rw [stripChars, trimEndChars, List.getLast?_reverse] at hc
    exact head?_dropWhile c hc

/-- Trimming gives the one part without blanks at its ends that the text is padded from. -/
theorem stripChars_eq_iff :
    stripChars cs = core ↔ Padded core cs ∧ IsTrimmed core := by
  constructor
  · rintro rfl
    exact ⟨padded_stripChars cs, isTrimmed_stripChars cs⟩
  · rintro ⟨hpadded, htrimmed⟩
    exact stripChars_of_padded hpadded htrimmed

theorem strip_ofList_eq_iff {s : String} :
    strip (String.ofList cs) = s ↔ Padded s.toList cs ∧ IsTrimmed s.toList := by
  rw [← stripChars_eq_iff, ← String.toList_inj]
  simp [strip]

/-- Blanks around a text bring no other character. -/
theorem not_mem_of_padded {c : Char}
    (hcore : c ∉ core)
    (hc : isBlank c = false)
    (h : Padded core cs) :
    c ∉ cs := by
  obtain ⟨left, right, hleft, hright, rfl⟩ := h
  intro hmem
  rcases List.mem_append.1 hmem with hmem | hmem
  · rcases List.mem_append.1 hmem with hmem | hmem
    · exact absurd ((hleft c hmem).symm.trans hc) (by simp)
    · exact hcore hmem
  · exact absurd ((hright c hmem).symm.trans hc) (by simp)

/-- Trimming stops at a character that is no blank. -/
theorem stripChars_append_cons {c : Char}
    (h : isBlank c = false) (before after : List Char) :
    stripChars (before ++ c :: after) = before.dropWhile isBlank ++ c :: trimEndChars after := by
  rw [stripChars, dropWhile_append_cons h, trimEndChars, trimEndChars]
  simp [dropWhile_append_cons h]

theorem isIdentifierPart_of_isIdentifierStart {c : Char}
    (h : isIdentifierStart c = true) :
    isIdentifierPart c = true := by
  by_cases hascii : c.toNat < 128
  · have hpart : isIdentifierPart c = (c.isAlphanum || c == '_') := by
      simp [isIdentifierPart, hascii]
    simp only [isIdentifierStart, hascii, if_true, Bool.or_eq_true] at h
    rw [hpart, Bool.or_eq_true, Char.isAlphanum, Bool.or_eq_true]
    rcases h with h | h
    · exact .inl (.inl h)
    · exact .inr h
  · simp [isIdentifierPart, hascii, h]

theorem isIdentifierPart_of_isIdentifier {s : String}
    (h : isIdentifier s = true) :
    ∀ c ∈ s.toList, isIdentifierPart c = true := by
  unfold isIdentifier at h
  split at h
  · simp at h
  · next c rest hchars =>
      rw [Bool.and_eq_true, List.all_eq_true] at h
      rw [hchars]
      exact List.forall_mem_cons.2 ⟨isIdentifierPart_of_isIdentifierStart h.1, h.2⟩

/-- No blank is part of an identifier. -/
theorem isIdentifierPart_of_isBlank {c : Char}
    (h : isBlank c = true) :
    isIdentifierPart c = false := by
  simpa using of_isBlank (p := fun c => !isIdentifierPart c) (by decide +kernel) h

/-- A text is trimmed when a test that no blank passes holds throughout. -/
theorem isTrimmed_of_forall {p : Char → Bool}
    (hp : ∀ {c}, isBlank c = true → p c = false)
    (h : ∀ c ∈ core, p c = true) :
    IsTrimmed core := by
  have hnone : ∀ c ∈ core, isBlank c = false := by
    intro c hc
    by_contra hblank
    rw [Bool.not_eq_false] at hblank
    exact absurd ((h c hc).symm.trans (hp hblank)) (by simp)
  exact ⟨fun c hc => hnone c (List.mem_of_head? hc), fun c hc => hnone c (List.mem_of_getLast? hc)⟩

end Blanks

end Text

namespace InstanceSpec

open Text Reference

section Arguments

variable {args : List Char} {tokens : List Token}

/-- A reference that goes on with a bracket has arguments up to the closing bracket. -/
theorem derives_opening_iff {name : String} {r : Reference} :
    Derives r (.name name :: .opening :: tokens) ↔
      ∃ refs marked front, r = ⟨name, refs, marked⟩ ∧
        tokens = front ++ .closing :: questionIf marked ∧ DerivesAll refs front := by
  constructor
  · intro h
    generalize hall : Token.name name :: .opening :: tokens = all at h
    cases h with
    | @plain _ nullable =>
        cases nullable with
        | false => simp [questionIf] at hall
        | true => simp [questionIf] at hall
    | generic hrefs =>
        obtain ⟨hname, hrest⟩ := List.cons.inj hall
        obtain ⟨-, htokens⟩ := List.cons.inj hrest
        obtain rfl := Token.name.inj hname
        exact ⟨_, _, _, rfl, htokens, hrefs⟩
  · rintro ⟨refs, marked, front, rfl, rfl, hrefs⟩
    exact .generic hrefs

/-- A name before a bracket is a token of its own. -/
theorem splits_generic_iff :
    Splits ("Generic<" ++ String.ofList args).toList tokens ↔
      ∃ more, tokens = .name "Generic" :: .opening :: more ∧ Splits args more := by
  have hchars : ("Generic<" ++ String.ofList args).toList = "Generic".toList ++ '<' :: args := by
    simp
  have hname : ∀ c ∈ "Generic".toList, isNameChar c = true :=
    List.all_eq_true.1 (by decide)
  have hsign : isNameChar '<' = false := by decide
  have hpending : pendingName "Generic".toList.reverse = [.name "Generic"] := by decide
  rw [hchars, splits_run_iff hname (by simpa using hsign), hpending]
  constructor
  · rintro ⟨more, rfl, hmore⟩
    rcases (splits_cons_iff hsign).1 hmore with ⟨hblank, -⟩ | ⟨token, rest, htoken, rfl, hrest⟩
    · exact absurd hblank (by decide)
    · obtain rfl := Option.some.inj htoken
      exact ⟨rest, rfl, hrest⟩
  · rintro ⟨more, rfl, hmore⟩
    exact ⟨.opening :: more, rfl, .sign rfl hmore⟩

/-- Type arguments as they stand after an opening bracket: references with commas between them and
the closing bracket, which a question mark may follow. -/
def WritesArgs (args : List Char) (shapes : List Shape) (marked : Bool) : Prop :=
  ∃ refs tokens, Splits args (tokens ++ .closing :: questionIf marked) ∧ DerivesAll refs tokens ∧
    List.Forall₂ Denotes refs shapes

theorem shape_generic (refs : List Reference) (marked : Bool) :
    (Reference.mk "Generic" refs marked).shape = ⟨"Generic", "kotlin", shapes refs, marked⟩ := by
  have hname : Shape.primitiveName? (binaryName "Generic") = none := by decide +kernel
  have hkey : Shape.typeKey (binaryName "Generic") = ⟨"kotlin", "Generic"⟩ := by decide +kernel
  rw [shape, Shape.ofBinaryName_of_declared hname, hkey]

theorem forall₂_denotes_iff {refs : List Reference} {ss : List Shape} :
    List.Forall₂ Denotes refs ss ↔ shapes refs = ss :=
  ⟨shapes_of_denotes refs, fun h => h ▸ denotes_shapes refs⟩

/-- The arguments of a type `Generic`. -/
theorem parse_generic_eq_ok_iff {s : Shape} :
    Shape.parse ("Generic<" ++ String.ofList args) = .ok s ↔
      ∃ ss marked, WritesArgs args ss marked ∧ s = ⟨"Generic", "kotlin", ss, marked⟩ := by
  rw [parse_shape_eq_ok_iff]
  constructor
  · rintro ⟨r, ⟨tokens, hsplits, hderives⟩, rfl⟩
    obtain ⟨more, rfl, hmore⟩ := splits_generic_iff.1 hsplits
    obtain ⟨refs, marked, front, rfl, rfl, hrefs⟩ := derives_opening_iff.1 hderives
    exact ⟨shapes refs, marked, ⟨refs, front, hmore, hrefs, denotes_shapes refs⟩,
      shape_generic refs marked⟩
  · rintro ⟨ss, marked, ⟨refs, front, hmore, hrefs, hss⟩, rfl⟩
    obtain rfl := forall₂_denotes_iff.1 hss
    refine ⟨⟨"Generic", refs, marked⟩, ⟨_, splits_generic_iff.2 ⟨_, rfl, hmore⟩, ?_⟩,
      shape_generic refs marked⟩
    exact derives_opening_iff.2 ⟨refs, marked, front, rfl, rfl, hrefs⟩

/-- Arguments can be written in one way only. -/
theorem WritesArgs.unique {ss ss' : List Shape} {marked marked' : Bool}
    (h : WritesArgs args ss marked)
    (h' : WritesArgs args ss' marked') :
    ss = ss' ∧ marked = marked' := by
  have hparse := parse_generic_eq_ok_iff.2 ⟨ss, marked, h, rfl⟩
  rw [parse_generic_eq_ok_iff.2 ⟨ss', marked', h', rfl⟩] at hparse
  obtain ⟨-, -, hss, hmarked⟩ := Shape.mk.inj (Except.ok.inj hparse)
  exact ⟨hss.symm, hmarked.symm⟩

theorem splits_of_blanks {cs : List Char}
    (h : ∀ c ∈ cs, isBlank c = true) :
    Splits cs [] := by
  induction cs with
  | nil => exact .nil
  | cons c rest ih =>
      obtain ⟨hc, hrest⟩ := List.forall_mem_cons.1 h
      exact .blank hc (ih hrest)

/-- Blanks at the end have no tokens. -/
theorem splits_trimEndChars :
    Splits (trimEndChars args) tokens ↔ Splits args tokens := by
  have hblanks : ∀ c ∈ (args.reverse.takeWhile isBlank).reverse, isBlank c = true :=
    fun c hc => List.mem_takeWhile_imp (List.mem_reverse.1 hc)
  have hargs : trimEndChars args ++ (args.reverse.takeWhile isBlank).reverse = args := by
    rw [trimEndChars, ← List.reverse_append, List.takeWhile_append_dropWhile, List.reverse_reverse]
  have hstart : ∀ c ∈ (args.reverse.takeWhile isBlank).reverse.head?, isNameChar c = false :=
    fun c hc => isNameChar_of_isBlank (hblanks c (List.mem_of_head? hc))
  have hnone := splits_of_blanks hblanks
  rw [← hargs, splits_append_iff hstart, hargs]
  constructor
  · intro h
    exact ⟨tokens, [], (List.append_nil _).symm, h, hnone⟩
  · rintro ⟨front, back, rfl, hfront, hback⟩
    rwa [hback.unique hnone, List.append_nil]

/-- Blanks after the arguments do not matter. -/
theorem writesArgs_trimEndChars {ss : List Shape} {marked : Bool} :
    WritesArgs (trimEndChars args) ss marked ↔ WritesArgs args ss marked := by
  simp only [WritesArgs, splits_trimEndChars]

end Arguments

section Forms

variable {text : String} {spec : InstanceSpec} {before cls args : List Char}

/-- The text is cut at its first equals sign and after that at its first opening bracket. -/
structure CutAs (text : String) (before cls args : List Char) : Prop where
  text : text.toList = before ++ '=' :: (cls ++ '<' :: args)
  before : '=' ∉ before
  cls : '<' ∉ cls

/-- There is one way to cut a form. -/
theorem CutAs.unique {before' cls' args' : List Char}
    (h : CutAs text before cls args)
    (h' : CutAs text before' cls' args') :
    before = before' ∧ cls = cls' ∧ args = args' := by
  have hequals : some (before, cls ++ '<' :: args) = some (before', cls' ++ '<' :: args') := by
    rw [← cutFirst?_append h.before, ← h.text, h'.text, cutFirst?_append h'.before]
  obtain ⟨hbefore, hafter⟩ := Prod.mk.inj (Option.some.inj hequals)
  have hbracket : some (cls, args) = some (cls', args') := by
    rw [← cutFirst?_append h.cls, hafter, cutFirst?_append h'.cls]
  obtain ⟨hcls, hargs⟩ := Prod.mk.inj (Option.some.inj hbracket)
  exact ⟨hbefore, hcls, hargs⟩

/-- Once a form is cut, it is read exactly if the name is an identifier and the arguments are ones.
-/
theorem CutAs.parse_eq_ok_iff
    (h : CutAs text before cls args) :
    parse text = .ok spec ↔
      isIdentifier (strip (String.ofList before)) = true ∧
        ∃ ss marked, WritesArgs args ss marked ∧
          spec = ⟨strip (String.ofList before), strip (String.ofList cls), ss⟩ := by
  have hcut : cutFirst? '<' (stripChars (cls ++ '<' :: args)) =
      some (cls.dropWhile isBlank, trimEndChars args) := by
    rw [stripChars_append_cons (by decide)]
    exact cutFirst?_append fun hmem => h.cls ((List.dropWhile_sublist _).mem hmem)
  have hcls : strip (String.ofList (cls.dropWhile isBlank)) = strip (String.ofList cls) := by
    simp [strip, stripChars, List.dropWhile_idempotent]
  unfold parse
  simp only [h.text, cutFirst?_append h.before, pure_bind]
  rw [hcut, ← hcls]
  simp only [← @writesArgs_trimEndChars args]
  cases isIdentifier (strip (String.ofList before)) with
  | false => simp [throw, throwThe, MonadExceptOf.throw, bind, Except.bind]
  | true =>
      cases htrimmed : trimEndChars args with
      | nil =>
          -- nothing is written after the bracket
          have hnone : ∀ ss marked, ¬ WritesArgs [] ss marked := by
            rintro ss marked ⟨refs, tokens, hsplits, -⟩
            simpa using splits_nil.1 hsplits
          simp [hnone, throw, throwThe, MonadExceptOf.throw]
      | cons c rest =>
          simp only [Bool.true_eq_false, if_false, true_and]
          rw [Outcome.bind_eq_ok_iff]
          simp only [Outcome.mapError_eq_ok_iff, parse_generic_eq_ok_iff]
          constructor
          · rintro ⟨s, ⟨ss, marked, hargs, rfl⟩, hspec⟩
            exact ⟨ss, marked, hargs, (Except.ok.inj hspec).symm⟩
          · rintro ⟨ss, marked, hargs, rfl⟩
            exact ⟨_, ⟨ss, marked, hargs, rfl⟩, rfl⟩

/-- What is read was cut. -/
theorem exists_cutAs_of_parse
    (h : parse text = .ok spec) :
    ∃ before cls args, CutAs text before cls args := by
  unfold parse at h
  cases hequals : cutFirst? '=' text.toList with
  | none => simp [hequals, throw, throwThe, MonadExceptOf.throw, bind, Except.bind] at h
  | some cut =>
      obtain ⟨before, after⟩ := cut
      simp only [hequals, pure_bind] at h
      cases hbracket : cutFirst? '<' (stripChars after) with
      | none =>
          simp only [hbracket] at h
          split at h <;> simp [throw, throwThe, MonadExceptOf.throw, bind, Except.bind] at h
      | some cut =>
          -- the bracket was found in the trimmed text, so it is there before trimming
          obtain ⟨cls, args⟩ := cut
          obtain ⟨htext, hbefore⟩ := cutFirst?_eq_some hequals
          obtain ⟨htarget, hcls⟩ := cutFirst?_eq_some hbracket
          obtain ⟨left, right, hleft, -, hafter⟩ := padded_stripChars after
          refine ⟨before, left ++ cls, args ++ right, ?_, hbefore, ?_⟩
          · rw [htext, hafter, htarget]
            simp
          · rw [List.mem_append, not_or]
            exact ⟨fun hmem => absurd (hleft '<' hmem) (by decide), hcls⟩

/-- The parts of a text `Name=Class<Arg, ...>`, up to blanks around them; `marked` tells whether a
question mark follows the closing bracket. -/
structure Form (text : String) (spec : InstanceSpec) (marked : Bool) : Prop where
  identifier : isIdentifier spec.name = true
  parts : ∃ before cls args, text.toList = before ++ '=' :: (cls ++ '<' :: args) ∧
    Padded spec.name.toList before ∧ Padded spec.className.toList cls ∧
    WritesArgs args spec.args marked

/-- The text before the opening bracket can be cut off: it holds no bracket and has no blanks
around it. -/
def IsCuttable (className : String) : Prop :=
  IsTrimmed className.toList ∧ '<' ∉ className.toList

/-- A name as it stands in a type reference. -/
def IsName (className : String) : Prop :=
  className ≠ "" ∧ ∀ c ∈ className.toList, isNameChar c = true

theorem IsName.isCuttable {className : String}
    (h : IsName className) :
    IsCuttable className :=
  ⟨isTrimmed_of_forall isNameChar_of_isBlank h.2, fun hmem => absurd (h.2 '<' hmem) (by decide)⟩

theorem isTrimmed_identifier {name : String}
    (h : isIdentifier name = true) :
    IsTrimmed name.toList :=
  isTrimmed_of_forall isIdentifierPart_of_isBlank (isIdentifierPart_of_isIdentifier h)

theorem isCuttable_strip
    (h : '<' ∉ cls) :
    IsCuttable (strip (String.ofList cls)) := by
  obtain ⟨⟨left, right, -, -, hcls⟩, htrimmed⟩ :=
    strip_ofList_eq_iff.1 (Eq.refl (strip (String.ofList cls)))
  refine ⟨htrimmed, fun hmem => h ?_⟩
  rw [hcls, List.append_assoc, List.mem_append, List.mem_append]
  exact .inr (.inl hmem)

/-- The parts of a text are where it is cut. -/
theorem form_iff {marked : Bool}
    (hcuttable : IsCuttable spec.className) :
    Form text spec marked ↔ ∃ before cls args, CutAs text before cls args ∧
      isIdentifier (strip (String.ofList before)) = true ∧ WritesArgs args spec.args marked ∧
      strip (String.ofList before) = spec.name ∧ strip (String.ofList cls) = spec.className := by
  constructor
  · rintro ⟨hidentifier, before, cls, args, htext, hname, hclass, hargs⟩
    have hequals : '=' ∉ spec.name.toList := fun hmem =>
      absurd (isIdentifierPart_of_isIdentifier hidentifier '=' hmem) (by decide)
    have hcut : CutAs text before cls args :=
      ⟨htext, not_mem_of_padded hequals (by decide) hname,
        not_mem_of_padded hcuttable.2 (by decide) hclass⟩
    have hstrip : strip (String.ofList before) = spec.name :=
      strip_ofList_eq_iff.2 ⟨hname, isTrimmed_identifier hidentifier⟩
    exact ⟨before, cls, args, hcut, hstrip ▸ hidentifier, hargs, hstrip,
      strip_ofList_eq_iff.2 ⟨hclass, hcuttable.1⟩⟩
  · rintro ⟨before, cls, args, hcut, hidentifier, hargs, hname, hclass⟩
    exact ⟨hname ▸ hidentifier, before, cls, args, hcut.text, (strip_ofList_eq_iff.1 hname).1,
      (strip_ofList_eq_iff.1 hclass).1, hargs⟩

/-- A text is read exactly if it has the form of an instance, with a class name that can be cut out.
-/
theorem parse_eq_ok_iff :
    parse text = .ok spec ↔ ∃ marked, Form text spec marked ∧ IsCuttable spec.className := by
  constructor
  · intro h
    obtain ⟨before, cls, args, hcut⟩ := exists_cutAs_of_parse h
    obtain ⟨hidentifier, ss, marked, hargs, hspec⟩ := hcut.parse_eq_ok_iff.1 h
    have hclass : strip (String.ofList cls) = spec.className := by rw [hspec]
    have hname : strip (String.ofList before) = spec.name := by rw [hspec]
    have hargs' : WritesArgs args spec.args marked := by rwa [hspec]
    have hcuttable : IsCuttable spec.className := hclass ▸ isCuttable_strip hcut.cls
    exact ⟨marked,
      (form_iff hcuttable).2 ⟨before, cls, args, hcut, hidentifier, hargs', hname, hclass⟩,
      hcuttable⟩
  · rintro ⟨marked, hform, hcuttable⟩
    obtain ⟨before, cls, args, hcut, hidentifier, hargs, hname, hclass⟩ :=
      (form_iff hcuttable).1 hform
    refine hcut.parse_eq_ok_iff.2 ⟨hidentifier, spec.args, marked, hargs, ?_⟩
    rw [hname, hclass]

/-- A text that is read has a question mark at its end or has none. -/
theorem Form.marked_unique {marked marked' : Bool}
    (h : Form text spec marked)
    (h' : Form text spec marked')
    (hcuttable : IsCuttable spec.className) :
    marked = marked' := by
  obtain ⟨before, cls, args, hcut, -, hargs, -⟩ := (form_iff hcuttable).1 h
  obtain ⟨before', cls', args', hcut', -, hargs', -⟩ := (form_iff hcuttable).1 h'
  obtain ⟨-, -, rfl⟩ := hcut.unique hcut'
  exact (hargs.unique hargs').2

/-- The form as it is documented: the class is a name, and the closing bracket ends the text. -/
def Documented (text : String) (spec : InstanceSpec) : Prop :=
  Form text spec false ∧ IsName spec.className

/-- Every documented form is read. -/
theorem Documented.parse_eq_ok
    (h : Documented text spec) :
    parse text = .ok spec :=
  parse_eq_ok_iff.2 ⟨false, h.1, h.2.isCuttable⟩

/-- The two ways in which a text that is read can differ from the documented form. -/
theorem exists_documented_iff {marked : Bool}
    (h : parse text = .ok spec)
    (hform : Form text spec marked) :
    (∃ spec', Documented text spec') ↔ marked = false ∧ IsName spec.className := by
  obtain ⟨-, -, hcuttable⟩ := parse_eq_ok_iff.1 h
  constructor
  · rintro ⟨spec', hdocumented⟩
    obtain rfl := Except.ok.inj (h.symm.trans hdocumented.parse_eq_ok)
    exact ⟨hform.marked_unique hdocumented.1 hcuttable, hdocumented.2⟩
  · rintro ⟨rfl, hname⟩
    exact ⟨spec, hform, hname⟩

/-- What is read from a text. -/
structure ReadByForm (text : String) : Prop where
  /-- A text of the documented form asks for what its parts say. -/
  documented : ∀ spec, Documented text spec → parse text = .ok spec
  /-- The class may be any text that holds no opening bracket, and a question mark may end the
  text. -/
  accepts : ∀ spec, parse text = .ok spec ↔
    ∃ marked, Form text spec marked ∧ IsCuttable spec.className
  /-- Of the texts that are read, those have the documented form that end with the bracket and whose
  class is a name. -/
  undocumented : ∀ spec marked, parse text = .ok spec → Form text spec marked →
    ((∃ spec', Documented text spec') ↔ marked = false ∧ IsName spec.className)
  /-- Any other text is refused. -/
  refuses : (∀ spec marked, Form text spec marked → ¬ IsCuttable spec.className) →
    ∃ e, parse text = .error e

/-- The forms of instances that are read are those documented, and those that the reader is lenient
about. -/
theorem instances_read_by_form (text : String) :
    ReadByForm text where
  documented _ h := h.parse_eq_ok
  accepts _ := parse_eq_ok_iff
  undocumented _ _ h hform := exists_documented_iff h hform
  refuses h := by
    cases hparse : parse text with
    | error e => exact ⟨e, rfl⟩
    | ok spec =>
        obtain ⟨marked, hform, hcuttable⟩ := parse_eq_ok_iff.1 hparse
        exact absurd hcuttable (h spec marked hform)

/-- No class is named, and a question mark follows the arguments; both texts are read. -/
theorem instances_read_without_form :
    (parse "Longs=<Long>" = .ok ⟨"Longs", "", [⟨"Long", "kotlin", [], false⟩]⟩ ∧
      ¬ ∃ spec, Documented "Longs=<Long>" spec) ∧
    parse "Longs=app.Box<Long>?" = .ok ⟨"Longs", "app.Box", [⟨"Long", "kotlin", [], false⟩]⟩ ∧
      ¬ ∃ spec, Documented "Longs=app.Box<Long>?" spec := by
  have hunnamed :
      parse "Longs=<Long>" = .ok ⟨"Longs", "", [⟨"Long", "kotlin", [], false⟩]⟩ := by
    decide +kernel
  have hmarked :
      parse "Longs=app.Box<Long>?" = .ok ⟨"Longs", "app.Box", [⟨"Long", "kotlin", [], false⟩]⟩ := by
    decide +kernel
  have hlong : WritesArgs "Long>?".toList [⟨"Long", "kotlin", [], false⟩] true :=
    ⟨[⟨"Long", [], false⟩], [.name "Long"], scan_eq_some_iff.1 (by decide +kernel), .one .plain,
      forall₂_denotes_iff.2 (by decide +kernel)⟩
  have hform : Form "Longs=app.Box<Long>?"
      ⟨"Longs", "app.Box", [⟨"Long", "kotlin", [], false⟩]⟩ true :=
    ⟨by decide +kernel, "Longs".toList, "app.Box".toList, "Long>?".toList, by decide +kernel,
      ⟨[], [], by simp, by simp, by simp⟩, ⟨[], [], by simp, by simp, by simp⟩, hlong⟩
  refine ⟨⟨hunnamed, ?_⟩, hmarked, ?_⟩
  · obtain ⟨marked, hform, -⟩ := parse_eq_ok_iff.1 hunnamed
    rw [exists_documented_iff hunnamed hform]
    rintro ⟨-, hname, -⟩
    exact hname rfl
  · rw [exists_documented_iff hmarked hform]
    simp

end Forms

end InstanceSpec

end Facade
