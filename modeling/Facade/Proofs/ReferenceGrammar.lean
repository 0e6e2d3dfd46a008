import Facade.Shape.Reference
import Facade.Proofs.UniqueReading

/-!
# The grammar of type references

**Input.**  A text.

**Algorithm.**  The text is split into the longest runs of name characters and into signs, with
blanks anywhere between them and no other character.  The tokens have to derive from

    ref := NAME [ '<' ref { ',' ref } '>' ] [ '?' ]

Blanks, name characters and signs are different characters, so a text is split in one way only.  A
reference inside another one is followed by a comma or a closing bracket, and neither of them can
go on with a reference; so the reader never has to choose, and tokens are derived in one way only.

**Results.**
* `scan_eq_some_iff`: the scan finds the tokens of a text whenever there are any.
* `read_of_derives` and `derives_of_read`: the reader accepts what the grammar derives, and nothing
  else.
* `parse_eq_ok_iff`: a reference is read from the texts that write it.
* `references_follow_grammar`: which texts refer to a type, and to which one.
-/

namespace Facade

namespace Text

/-- The code points of the blanks. -/
def blankCodes : List Nat :=
  List.range' 0x09 5 ++ List.range' 0x1c 5 ++ [0x85, 0xa0, 0x1680] ++ List.range' 0x2000 11 ++
    [0x2028, 0x2029, 0x202f, 0x205f, 0x3000]

theorem toNat_mem_blankCodes {c : Char}
    (h : isBlank c = true) :
    c.toNat ∈ blankCodes := by
  simp only [isBlank, Bool.or_eq_true, Bool.and_eq_true, decide_eq_true_eq, beq_iff_eq] at h
  simp only [blankCodes, List.mem_append, List.mem_range'_1, List.mem_cons, List.not_mem_nil,
    or_false]
  omega

/-- What holds of every blank is found out by trying them. -/
theorem of_isBlank {p : Char → Bool} {c : Char}
    (hp : (blankCodes.all fun n => p (Char.ofNat n)) = true)
    (h : isBlank c = true) :
    p c = true := by
  have hcode := List.all_eq_true.1 hp c.toNat (toNat_mem_blankCodes h)
  rwa [Char.ofNat_toNat] at hcode

end Text

namespace Shape

/-- The Kotlin name of a primitive type or of its boxed class. -/
def primitiveName? (binaryName : String) : Option String :=
  (primitives.get? binaryName).or (boxed.get? binaryName)

/-- The type that a binary name stands for, without arguments. -/
def typeKey (binaryName : String) : Key :=
  (ofBinaryName binaryName [] false).key

theorem ofBinaryName_of_primitive {binaryName name : String}
    (h : primitiveName? binaryName = some name) (args : List Shape) (nullable : Bool) :
    ofBinaryName binaryName args nullable = ⟨name, "kotlin", [], nullable⟩ := by
  rw [primitiveName?] at h
  rw [ofBinaryName, h]
  rfl

/-- A name that is no primitive type is looked up, and keeps its arguments. -/
theorem ofBinaryName_of_declared {binaryName : String}
    (h : primitiveName? binaryName = none) (args : List Shape) (nullable : Bool) :
    ofBinaryName binaryName args nullable =
      ⟨(typeKey binaryName).name, (typeKey binaryName).package, args, nullable⟩ := by
  rw [primitiveName?] at h
  rw [typeKey, ofBinaryName, ofBinaryName, h]
  rfl

end Shape

namespace Reference

open Text

section Tokens

/-- The tokens of a text: runs of name characters that cannot be longer, and signs, with blanks
anywhere between them. -/
inductive Splits : List Char → List Token → Prop
  | nil : Splits [] []
  | blank {c rest tokens} :
      isBlank c = true →
      Splits rest tokens →
      Splits (c :: rest) tokens
  | sign {c token rest tokens} :
      sign? c = some token →
      Splits rest tokens →
      Splits (c :: rest) (token :: tokens)
  | name {run rest tokens} :
      run ≠ [] →
      (∀ c ∈ run, isNameChar c = true) →
      (∀ c ∈ rest.head?, isNameChar c = false) →
      Splits rest tokens →
      Splits (run ++ rest) (.name (String.ofList run) :: tokens)

variable {c : Char} {run rest : List Char} {token : Token} {tokens : List Token}

theorem isNameChar_of_isBlank
    (h : isBlank c = true) :
    isNameChar c = false := by
  simpa using of_isBlank (p := fun c => !isNameChar c) (by decide +kernel) h

theorem mem_signs_of_sign?
    (h : sign? c = some token) :
    c ∈ ['<', '>', ',', '?'] := by
  unfold sign? at h
  split at h
  all_goals simp at h ⊢

theorem isNameChar_of_sign?
    (h : sign? c = some token) :
    isNameChar c = false := by
  have hsigns : (['<', '>', ',', '?'].all fun c => !isNameChar c) = true := by decide +kernel
  simpa using List.all_eq_true.1 hsigns c (mem_signs_of_sign? h)

theorem isBlank_of_sign?
    (h : sign? c = some token) :
    isBlank c = false := by
  have hsigns : (['<', '>', ',', '?'].all fun c => !isBlank c) = true := by decide +kernel
  simpa using List.all_eq_true.1 hsigns c (mem_signs_of_sign? h)

theorem splits_nil :
    Splits [] tokens ↔ tokens = [] := by
  constructor
  · intro h
    generalize hcs : ([] : List Char) = cs at h
    cases h with
    | nil => rfl
    | blank => simp at hcs
    | sign => simp at hcs
    | name hrun =>
        obtain ⟨hempty, -⟩ := List.append_eq_nil_iff.1 hcs.symm
        exact absurd hempty hrun
  · rintro rfl
    exact .nil

/-- What starts with a name character starts with a name. -/
theorem splits_cons_of_isNameChar
    (hc : isNameChar c = true)
    (h : Splits (c :: rest) tokens) :
    ∃ run after more, c :: rest = run ++ after ∧ run ≠ [] ∧ (∀ c ∈ run, isNameChar c = true) ∧
      (∀ c ∈ after.head?, isNameChar c = false) ∧
      tokens = .name (String.ofList run) :: more ∧ Splits after more := by
  generalize hcs : c :: rest = cs at h
  cases h with
  | nil => simp at hcs
  | blank hblank =>
      obtain ⟨rfl, -⟩ := List.cons.inj hcs
      exact absurd (hc.symm.trans (isNameChar_of_isBlank hblank)) (by simp)
  | sign hsign =>
      obtain ⟨rfl, -⟩ := List.cons.inj hcs
      exact absurd (hc.symm.trans (isNameChar_of_sign? hsign)) (by simp)
  | name hrun hname hafter hsplits => exact ⟨_, _, _, rfl, hrun, hname, hafter, rfl, hsplits⟩

/-- What starts otherwise starts with a blank or a sign. -/
theorem splits_cons_iff
    (hc : isNameChar c = false) :
    Splits (c :: rest) tokens ↔
      isBlank c = true ∧ Splits rest tokens ∨
        ∃ token more, sign? c = some token ∧ tokens = token :: more ∧ Splits rest more := by
  constructor
  · intro h
    generalize hcs : c :: rest = cs at h
    cases h with
    | nil => simp at hcs
    | blank hblank hsplits =>
        obtain ⟨rfl, rfl⟩ := List.cons.inj hcs
        exact .inl ⟨hblank, hsplits⟩
    | sign hsign hsplits =>
        obtain ⟨rfl, rfl⟩ := List.cons.inj hcs
        exact .inr ⟨_, _, hsign, rfl, hsplits⟩
    | @name run _ _ hrun hname =>
        cases run with
        | nil => exact absurd rfl hrun
        | cons d run =>
            obtain ⟨rfl, -⟩ := List.cons.inj hcs
            exact absurd (hc.symm.trans (hname c List.mem_cons_self)) (by simp)
  · rintro (⟨hblank, hsplits⟩ | ⟨token, more, hsign, rfl, hsplits⟩)
    · exact .blank hblank hsplits
    · exact .sign hsign hsplits

/-- A run of name characters is a name of its own when it cannot be longer. -/
theorem splits_run_iff
    (hname : ∀ c ∈ run, isNameChar c = true)
    (hrest : ∀ c ∈ rest.head?, isNameChar c = false) :
    Splits (run ++ rest) tokens ↔
      ∃ more, tokens = pendingName run.reverse ++ more ∧ Splits rest more := by
  cases run with
  | nil => simp [pendingName]
  | cons c run =>
      have hpending : pendingName (c :: run).reverse = [.name (String.ofList (c :: run))] := by
        simp [pendingName]
      rw [hpending]
      constructor
      · intro h
        obtain ⟨run', after, more, hcs, -, hname', hafter, htokens, hsplits⟩ :=
          splits_cons_of_isNameChar (hname c List.mem_cons_self) h
        obtain ⟨hrun, rfl⟩ := append_inj_of_run hname hname' hrest hafter hcs
        rw [hrun]
        exact ⟨more, htokens, hsplits⟩
      · rintro ⟨more, rfl, hsplits⟩
        exact .name (by simp) hname hrest hsplits

/-- The scan with characters pending is the scan of the whole, where these stand before the rest. -/
theorem scan_eq_some_iff_of_pending {pending cs : List Char}
    (hpending : ∀ c ∈ pending, isNameChar c = true) :
    scan pending cs = some tokens ↔ Splits (pending.reverse ++ cs) tokens := by
  induction cs generalizing pending tokens with
  | nil =>
      rw [splits_run_iff (by simpa using hpending) (by simp)]
      simp [scan, splits_nil, eq_comm]
  | cons c rest ih =>
      rw [scan]
      cases hc : isNameChar c with
      | true =>
          -- the run goes on
          have hlonger : ∀ d ∈ c :: pending, isNameChar d = true :=
            List.forall_mem_cons.2 ⟨hc, hpending⟩
          simpa using ih hlonger
      | false =>
          -- the run ends here
          have hfresh : ∀ {more}, scan [] rest = some more ↔ Splits rest more :=
            @fun more => @ih more [] (by simp)
          rw [splits_run_iff (by simpa using hpending) (by simpa using hc), List.reverse_reverse]
          simp only [splits_cons_iff hc]
          cases hblank : isBlank c with
          | true =>
              have hsign : sign? c = none := by
                cases hsign : sign? c with
                | none => rfl
                | some token => exact absurd (hblank.symm.trans (isBlank_of_sign? hsign)) (by simp)
              simp [hsign, hfresh, and_comm, eq_comm]
          | false =>
              cases hsign : sign? c with
              | none => simp
              | some token =>
                  simp only [Bool.false_eq_true, if_false, Option.bind_eq_bind, Option.bind_some,
                    Option.bind_eq_some_iff, hfresh]
                  simp [and_comm, eq_comm]

/-- The scan finds the tokens of a text whenever it has any. -/
theorem scan_eq_some_iff {cs : List Char} :
    scan [] cs = some tokens ↔ Splits cs tokens :=
  @scan_eq_some_iff_of_pending tokens [] cs (by simp)

/-- A text is split part by part where no name goes on. -/
theorem scan_append {pending cs rest : List Char}
    (h : ∀ c ∈ rest.head?, isNameChar c = false) :
    scan pending (cs ++ rest) =
      (scan pending cs).bind fun front => (scan [] rest).map fun back => front ++ back := by
  induction cs generalizing pending with
  | nil =>
      cases rest with
      | nil => simp [scan, pendingName]
      | cons c rest =>
          have hc : isNameChar c = false := h c rfl
          rw [List.nil_append, scan, scan, scan]
          cases hblank : isBlank c with
          | true => simp [hc, pendingName]
          | false =>
              cases sign? c with
              | none => simp [hc]
              | some token => simp [hc, pendingName, Option.map_eq_bind, Option.bind_assoc]
  | cons c front ih =>
      rw [List.cons_append, scan, scan]
      cases hc : isNameChar c with
      | true => simpa using ih
      | false =>
          cases isBlank c with
          | true => simp [ih, Option.map_bind, Option.bind_map, Function.comp_def]
          | false =>
              cases sign? c with
              | none => simp
              | some token => simp [ih, Option.map_eq_bind, Option.bind_assoc]

/-- A text can be cut into tokens where no name goes on. -/
theorem splits_append_iff {cs : List Char}
    (h : ∀ c ∈ rest.head?, isNameChar c = false) :
    Splits (cs ++ rest) tokens ↔
      ∃ front back, tokens = front ++ back ∧ Splits cs front ∧ Splits rest back := by
  simp only [← scan_eq_some_iff, scan_append h, Option.bind_eq_some_iff, Option.map_eq_some_iff]
  constructor
  · rintro ⟨front, hfront, back, hback, rfl⟩
    exact ⟨front, back, rfl, hfront, hback⟩
  · rintro ⟨front, back, rfl, hfront, hback⟩
    exact ⟨front, hfront, back, hback, rfl⟩

/-- A text has one list of tokens. -/
theorem Splits.unique {cs : List Char} {tokens' : List Token}
    (h : Splits cs tokens)
    (h' : Splits cs tokens') :
    tokens = tokens' :=
  Option.some.inj ((scan_eq_some_iff.2 h).symm.trans (scan_eq_some_iff.2 h'))

end Tokens

section Grammar

/-- A question mark for a nullable reference. -/
def questionIf (nullable : Bool) : List Token :=
  if nullable then [.question] else []

mutual

/-- The tokens of a reference: `ref := NAME [ '<' ref { ',' ref } '>' ] [ '?' ]`. -/
inductive Derives : Reference → List Token → Prop
  | plain {name nullable} :
      Derives ⟨name, [], nullable⟩ (.name name :: questionIf nullable)
  | generic {name args nullable tokens} :
      DerivesAll args tokens →
      Derives ⟨name, args, nullable⟩
        (.name name :: .opening :: (tokens ++ .closing :: questionIf nullable))

/-- The tokens of a list of references: `ref { ',' ref }`. -/
inductive DerivesAll : List Reference → List Token → Prop
  | one {r tokens} :
      Derives r tokens →
      DerivesAll [r] tokens
  | more {r rs tokens tokens'} :
      Derives r tokens →
      DerivesAll rs tokens' →
      DerivesAll (r :: rs) (tokens ++ .comma :: tokens')

end

/-- What may follow a reference without going on with it. -/
def Stops (rest : List Token) : Prop :=
  ∀ token ∈ rest.head?, token ≠ .opening ∧ token ≠ .question

/-- After a reference, a question mark is its own. -/
theorem finish_questionIf (name : String) (args : List Reference) (nullable : Bool)
    {rest : List Token}
    (h : Stops rest) :
    finish name args (questionIf nullable ++ rest) = (⟨name, args, nullable⟩, rest) := by
  cases nullable with
  | true => rfl
  | false =>
      cases rest with
      | nil => rfl
      | cons token rest =>
          have hquestion : token ≠ .question := (h token rfl).2
          cases token with
          | question => exact absurd rfl hquestion
          | name => rfl
          | opening => rfl
          | closing => rfl
          | comma => rfl

/-- What follows the name and the arguments is the question mark, if any, and the rest. -/
theorem finish_eq {name : String} {args : List Reference} {tokens rest : List Token}
    {r : Reference}
    (h : finish name args tokens = (r, rest)) :
    ∃ nullable, r = ⟨name, args, nullable⟩ ∧ tokens = questionIf nullable ++ rest := by
  unfold finish at h
  split at h
  · obtain ⟨rfl, rfl⟩ := Prod.mk.inj h
    exact ⟨true, rfl, rfl⟩
  · obtain ⟨rfl, rfl⟩ := Prod.mk.inj h
    exact ⟨false, rfl, rfl⟩

/-- A name that no opening bracket follows is a reference by itself. -/
theorem read_name {fuel : Nat} {name : String} {tokens : List Token}
    (h : ∀ rest, tokens ≠ .opening :: rest) :
    read (fuel + 1) (.name name :: tokens) = .ok (finish name [] tokens) := by
  cases tokens with
  | nil => rfl
  | cons token rest =>
      cases token with
      | opening => exact absurd rfl (h rest)
      | name => rfl
      | closing => rfl
      | comma => rfl
      | question => rfl

/-- The reader accepts what the grammar derives; it needs no more steps than there are tokens. -/
theorem read_of_derives (fuel : Nat) :
    (∀ {r tokens rest}, Derives r tokens → Stops rest → tokens.length ≤ fuel →
      read fuel (tokens ++ rest) = .ok (r, rest)) ∧
    ∀ {rs tokens rest}, DerivesAll rs tokens → tokens.length < fuel →
      readArgs fuel (tokens ++ .closing :: rest) = .ok (rs, rest) := by
  induction fuel with
  | zero =>
      refine ⟨?_, fun _ hfuel => absurd hfuel (by omega)⟩
      intro r tokens rest h _ hfuel
      cases h with
      | plain => simp at hfuel
      | generic => simp at hfuel
  | succ fuel ih =>
      obtain ⟨ihRef, ihList⟩ := ih
      constructor
      · intro r tokens rest h hstops hfuel
        cases h with
        | @plain name nullable =>
            rw [List.cons_append, read_name, finish_questionIf name [] nullable hstops]
            intro after hafter
            cases nullable with
            | true => simp [questionIf] at hafter
            | false =>
                obtain rfl : rest = .opening :: after := hafter
                exact (hstops .opening rfl).1 rfl
        | @generic name args nullable tokens hargs =>
            simp only [List.length_cons, List.length_append] at hfuel
            have hread := @ihList args tokens (questionIf nullable ++ rest) hargs (by omega)
            simp only [List.cons_append, List.append_assoc]
            rw [read, hread]
            exact congrArg Except.ok (finish_questionIf name args nullable hstops)
      · intro rs tokens rest h hfuel
        cases h with
        | @one r tokens hr =>
            have hread := @ihRef r tokens (.closing :: rest) hr (by simp [Stops]) (by omega)
            rw [readArgs, hread]
            rfl
        | @more r rs tokens tokens' hr hrs =>
            simp only [List.length_cons, List.length_append] at hfuel
            have hfirst := @ihRef r tokens (.comma :: (tokens' ++ .closing :: rest)) hr
              (by simp [Stops]) (by omega)
            have hothers := @ihList rs tokens' rest hrs (by omega)
            rw [List.append_assoc, List.cons_append, readArgs, hfirst]
            change (readArgs fuel (tokens' ++ .closing :: rest)).bind _ = _
            rw [hothers]
            rfl

/-- The reader accepts nothing else. -/
theorem derives_of_read (fuel : Nat) :
    (∀ {r tokens rest}, read fuel tokens = .ok (r, rest) →
      ∃ front, Derives r front ∧ tokens = front ++ rest) ∧
    ∀ {rs tokens rest}, readArgs fuel tokens = .ok (rs, rest) →
      ∃ front, DerivesAll rs front ∧ tokens = front ++ .closing :: rest := by
  induction fuel with
  | zero => exact ⟨fun h => by simp [read] at h, fun h => by simp [readArgs] at h⟩
  | succ fuel ih =>
      obtain ⟨ihRef, ihList⟩ := ih
      constructor
      · intro r tokens rest h
        unfold read at h
        split at h
        · next name after hfuel =>
            obtain rfl := Nat.succ.inj hfuel
            obtain ⟨⟨args, after'⟩, hargs, hfinish⟩ := Outcome.bind_eq_ok_iff.1 h
            obtain ⟨front, hderives, rfl⟩ := ihList hargs
            obtain ⟨nullable, rfl, rfl⟩ := finish_eq (Except.ok.inj hfinish)
            exact ⟨_, .generic hderives, by simp⟩
        · obtain ⟨nullable, rfl, rfl⟩ := finish_eq (Except.ok.inj h)
          exact ⟨_, .plain, by simp⟩
        · simp at h
      · intro rs tokens rest h
        rw [readArgs] at h
        obtain ⟨⟨r, after⟩, hread, hnext⟩ := Outcome.bind_eq_ok_iff.1 h
        obtain ⟨front, hderives, rfl⟩ := ihRef hread
        dsimp only at hnext
        split at hnext
        · obtain ⟨⟨others, after'⟩, hothers, hresult⟩ := Outcome.bind_eq_ok_iff.1 hnext
          obtain ⟨front', hderives', rfl⟩ := ihList hothers
          obtain ⟨rfl, rfl⟩ := Prod.mk.inj (Except.ok.inj hresult)
          exact ⟨_, .more hderives hderives', by simp⟩
        · obtain ⟨rfl, rfl⟩ := Prod.mk.inj (Except.ok.inj hnext)
          exact ⟨_, .one hderives, rfl⟩
        · simp at hnext

/-- Tokens that the grammar derives are read to their end. -/
theorem read_all_of_derives {r : Reference} {tokens : List Token}
    (h : Derives r tokens) :
    read (tokens.length + 1) tokens = .ok (r, []) := by
  have hread : read (tokens.length + 1) (tokens ++ []) = .ok (r, []) :=
    (read_of_derives _).1 h (by simp [Stops]) (by omega)
  rwa [List.append_nil] at hread

/-- A text writes a reference: it can be split into tokens that derive from it. -/
def Written (text : String) (r : Reference) : Prop :=
  ∃ tokens, Splits text.toList tokens ∧ Derives r tokens

/-- A text is read exactly if it writes a reference. -/
theorem parse_eq_ok_iff {text : String} {r : Reference} :
    parse text = .ok r ↔ Written text r := by
  constructor
  · intro h
    unfold parse at h
    split at h
    · simp at h
    · next tokens htokens =>
        split at h
        · simp at h
        · simp at h
        · next r' hread =>
            obtain rfl := Except.ok.inj h
            obtain ⟨front, hderives, hfront⟩ := (derives_of_read _).1 hread
            rw [List.append_nil] at hfront
            exact ⟨tokens, scan_eq_some_iff.1 htokens, hfront ▸ hderives⟩
        · simp at h
  · rintro ⟨tokens, hsplits, hderives⟩
    have htokens : tokens? text = some tokens := scan_eq_some_iff.2 hsplits
    unfold parse
    simp only [htokens, read_all_of_derives hderives]

/-- What goes wrong is one of three things, said of the whole text. -/
theorem parse_eq_error {text : String} {e : Error}
    (h : parse text = .error e) :
    e ∈ [.invalid text, .unbalanced text, .trailing text] := by
  unfold parse at h
  split at h
  · obtain rfl := Except.error.inj h
    simp
  · split at h
    · obtain rfl := Except.error.inj h
      simp
    · obtain rfl := Except.error.inj h
      simp
    · simp at h
    · obtain rfl := Except.error.inj h
      simp

/-- The grammar is unambiguous. -/
theorem Derives.unique {r r' : Reference} {tokens : List Token}
    (h : Derives r tokens)
    (h' : Derives r' tokens) :
    r = r' :=
  (Prod.mk.inj (Except.ok.inj ((read_all_of_derives h).symm.trans (read_all_of_derives h')))).1

end Grammar

section Types

/-- The type that a reference stands for: the type of its name, with the types of its arguments in
order unless the name is that of a primitive type, and nullable when it has a question mark. -/
inductive Denotes : Reference → Shape → Prop
  | primitive {name args nullable kotlinName} :
      Shape.primitiveName? (binaryName name) = some kotlinName →
      Denotes ⟨name, args, nullable⟩ ⟨kotlinName, "kotlin", [], nullable⟩
  | declared {name args nullable shapes} :
      Shape.primitiveName? (binaryName name) = none →
      List.Forall₂ Denotes args shapes →
      Denotes ⟨name, args, nullable⟩
        ⟨(Shape.typeKey (binaryName name)).name, (Shape.typeKey (binaryName name)).package, shapes,
          nullable⟩

mutual

/-- The shape of a reference is what it denotes. -/
theorem denotes_shape : (r : Reference) → Denotes r r.shape
  | ⟨name, args, nullable⟩ => by
      rw [shape]
      cases hname : Shape.primitiveName? (binaryName name) with
      | some kotlinName =>
          rw [Shape.ofBinaryName_of_primitive hname]
          exact .primitive hname
      | none =>
          rw [Shape.ofBinaryName_of_declared hname]
          exact .declared hname (denotes_shapes args)

theorem denotes_shapes : (refs : List Reference) → List.Forall₂ Denotes refs (shapes refs)
  | [] => .nil
  | r :: rest => .cons (denotes_shape r) (denotes_shapes rest)

end

mutual

/-- A reference denotes nothing but its shape. -/
theorem shape_of_denotes : (r : Reference) → {s : Shape} → Denotes r s → r.shape = s
  | ⟨name, args, nullable⟩, _, h => by
      rw [shape]
      cases h with
      | primitive hname => exact Shape.ofBinaryName_of_primitive hname _ _
      | declared hname hargs =>
          rw [Shape.ofBinaryName_of_declared hname, shapes_of_denotes args hargs]

theorem shapes_of_denotes : (refs : List Reference) → {ss : List Shape} →
    List.Forall₂ Denotes refs ss → shapes refs = ss
  | [], _, .nil => rfl
  | r :: rest, _, .cons h hrest => by
      rw [shapes, shape_of_denotes r h, shapes_of_denotes rest hrest]

end

theorem denotes_iff {r : Reference} {s : Shape} :
    Denotes r s ↔ r.shape = s :=
  ⟨shape_of_denotes r, fun h => h ▸ denotes_shape r⟩

/-- A text refers to the types of the references that it writes. -/
theorem parse_shape_eq_ok_iff {text : String} {s : Shape} :
    Shape.parse text = .ok s ↔ ∃ r, Written text r ∧ r.shape = s := by
  simp only [← parse_eq_ok_iff]
  rw [Shape.parse]
  cases parse text with
  | error e => simp [Except.map]
  | ok r => simp [Except.map]

/-- A text is read by the grammar of type references. -/
structure FollowsGrammar (text : String) : Prop where
  /-- The types read are those of the references that the text writes. -/
  accepts : ∀ {s}, Shape.parse text = .ok s ↔ ∃ r, Written text r ∧ Denotes r s
  /-- The text can be split in one way, and the tokens derived in one way. -/
  unambiguous : ∀ {tokens tokens' r r'}, Splits text.toList tokens → Splits text.toList tokens' →
    Derives r tokens → Derives r' tokens' → tokens = tokens' ∧ r = r'
  /-- Any other text is refused with an error that quotes it. -/
  refuses : (¬ ∃ r, Written text r) →
    ∃ e ∈ [Error.invalid text, .unbalanced text, .trailing text], Shape.parse text = .error e

/-- A text is read exactly if the grammar derives it, as the one shape that it denotes; any other
text is refused by name. -/
theorem references_follow_grammar (text : String) :
    FollowsGrammar text where
  accepts := by
    simp only [denotes_iff]
    exact parse_shape_eq_ok_iff
  unambiguous hsplits hsplits' hderives hderives' := by
    obtain rfl := hsplits.unique hsplits'
    exact ⟨rfl, hderives.unique hderives'⟩
  refuses hnone := by
    rw [Shape.parse]
    cases hparse : parse text with
    | ok r => exact absurd ⟨r, parse_eq_ok_iff.1 hparse⟩ hnone
    | error e => exact ⟨e, parse_eq_error hparse, rfl⟩

end Types

end Reference

end Facade
