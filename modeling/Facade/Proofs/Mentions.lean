import Facade.Code.Expr
import Facade.Proofs.ShortNames

/-!
# What printed code mentions

Parameters of lambdas are chosen by looking at text, so the names of an expression have to be found
again in its printed form.  A name that an expression refers to stands in its text as a whole word,
because every form of the language puts a separator on both sides of its parts, and the scan for
identifiers finds every whole word that starts like an identifier.

**Results.**
* `mem_identifiers_of_hasWord`: the scan finds whole words.
* `Name.not_hasWord_of_mem_lambdaParameters`: a parameter of a lambda is no whole word of the text
  that the lambda calls.
* `Expr.hasWord_source`: the names of an expression are whole words of its text.
* `Expr.not_mem_names_of_mem_lambdaParameters`: a parameter of a lambda is none of the names that
  the called expression refers to.
-/

namespace Facade
namespace Text

/-- `word` stands in a text between characters that belong to no word. -/
def HasWord (word text : List Char) : Prop :=
  ∃ before after, text = before ++ word ++ after ∧
    (∀ c ∈ before.getLast?, isWord c = false) ∧
    ∀ c ∈ after.head?, isWord c = false

theorem hasWord_self (word : List Char) :
    HasWord word word :=
  ⟨[], [], by simp, by simp, by simp⟩

/-- A word stays a word when text is put around it that does not touch it. -/
theorem HasWord.extend
    {word text : List Char}
    (h : HasWord word text)
    (left right : List Char)
    (hleft : ∀ c ∈ left.getLast?, isWord c = false)
    (hright : ∀ c ∈ right.head?, isWord c = false) :
    HasWord word (left ++ text ++ right) := by
  obtain ⟨before, after, rfl, hbefore, hafter⟩ := h
  refine ⟨left ++ before, after ++ right, by simp, ?_, ?_⟩
  · intro c hc
    rw [List.getLast?_append, Option.mem_def, Option.or_eq_some_iff] at hc
    rcases hc with hc | ⟨_, hc⟩
    · exact hbefore c hc
    · exact hleft c hc
  · intro c hc
    rw [List.head?_append, Option.mem_def, Option.or_eq_some_iff] at hc
    rcases hc with hc | ⟨_, hc⟩
    · exact hafter c hc
    · exact hright c hc

/-- Indenting the lines of a text keeps its words. -/
theorem HasWord.hang
    {word : List Char} {text : String}
    (h : HasWord word text.toList)
    (hline : '\n' ∉ word) :
    HasWord word (Text.hang text).toList := by
  obtain ⟨before, after, htext, hbefore, hafter⟩ := h
  set spread : Char → List Char := fun c => if c = '\n' then ("\n" ++ indentation).toList else [c]
    with hspread
  have hword : word.flatMap spread = word := by
    have hkeep : ∀ c ∈ word, spread c = [c] := by
      intro c hc
      have hne : c ≠ '\n' := by
        rintro rfl
        exact hline hc
      simp [hspread, hne]
    rw [List.flatMap_congr hkeep, List.flatMap_singleton']
  refine ⟨before.flatMap spread, after.flatMap spread, ?_, ?_, ?_⟩
  · rw [Text.hang, replaceChar, String.toList_ofList, htext, List.flatMap_append,
      List.flatMap_append, hword]
  · intro c hc
    rcases List.eq_nil_or_concat before with rfl | ⟨front, last, rfl⟩
    · simp at hc
    · have hlast := hbefore last (by simp)
      rw [List.concat_eq_append, List.flatMap_append, List.getLast?_append] at hc
      by_cases hnewline : last = '\n'
      · have : c = ' ' := by simpa [hspread, hnewline, indentation, eq_comm] using hc
        rw [this]
        decide
      · have : c = last := by simpa [hspread, hnewline, eq_comm] using hc
        rw [this]
        exact hlast
  · intro c hc
    cases after with
    | nil => simp at hc
    | cons first rest =>
        have hfirst := hafter first (by simp)
        by_cases hnewline : first = '\n'
        · have : c = '\n' := by simpa [hspread, hnewline, indentation, eq_comm] using hc
          rw [this]
          decide
        · have : c = first := by simpa [hspread, hnewline, eq_comm] using hc
          rw [this]
          exact hfirst

theorem isAlpha_iff {c : Char} :
    c.isAlpha = true ↔ (65 ≤ c.toNat ∧ c.toNat ≤ 90) ∨ (97 ≤ c.toNat ∧ c.toNat ≤ 122) := by
  have heq : c.isAlpha = (decide ('A'.val ≤ c.val ∧ c.val ≤ 'Z'.val) ||
      (decide ('a'.val ≤ c.val) && decide (c.val ≤ 'z'.val))) := rfl
  rw [heq]
  simp only [Bool.or_eq_true, Bool.and_eq_true, decide_eq_true_eq, UInt32.le_iff_toNat_le]
  exact Iff.rfl

theorem isWord_of_isScanStart {c : Char}
    (h : isScanStart c = true) :
    isWord c = true := by
  have hascii : c.toNat < 128 := by
    rw [isScanStart, Bool.or_eq_true, beq_iff_eq] at h
    rcases h with h | rfl
    · rcases isAlpha_iff.1 h with h | h
      · omega
      · omega
    · decide
  rw [isScanStart, Bool.or_eq_true] at h
  rw [isWord, if_pos hascii, Bool.or_eq_true, Char.isAlphanum, Bool.or_eq_true]
  exact h.imp Or.inl id

/-- After a character that belongs to no word the scan starts afresh. -/
theorem scanIdentifiers_append
    {before : List Char}
    (hbefore : ∀ c ∈ before.getLast?, isWord c = false)
    (hne : before ≠ [])
    (pending text : List Char) :
    ∃ found, scanIdentifiers pending (before ++ text) = found ++ scanIdentifiers [] text := by
  induction before generalizing pending with
  | nil => exact absurd rfl hne
  | cons c rest ih =>
      cases rest with
      | nil =>
          have hc : isWord c = false := hbefore c (by simp)
          cases pending with
          | nil =>
              refine ⟨[], ?_⟩
              have hstart : ¬ isScanStart c = true := fun h => by
                simp [isWord_of_isScanStart h] at hc
              simp [scanIdentifiers, hstart]
          | cons p ps =>
              refine ⟨[String.ofList (p :: ps).reverse], ?_⟩
              simp [scanIdentifiers, hc]
      | cons d rest =>
          have hrest : ∀ c ∈ (d :: rest).getLast?, isWord c = false := by
            intro c' hc'
            exact hbefore c' (by simpa using hc')
          have hih := ih hrest (by simp)
          cases pending with
          | nil =>
              rw [List.cons_append, scanIdentifiers]
              split
              · exact hih [c]
              · exact hih []
          | cons p ps =>
              rw [List.cons_append, scanIdentifiers]
              split
              · exact hih (c :: p :: ps)
              · obtain ⟨found, hfound⟩ := hih []
                refine ⟨String.ofList (p :: ps).reverse :: found, ?_⟩
                rw [hfound, List.cons_append]

theorem scanIdentifiers_word
    {word after : List Char}
    (hword : ∀ c ∈ word, isWord c = true)
    (hafter : ∀ c ∈ after.head?, isWord c = false)
    (p : Char) (ps : List Char) :
    String.ofList ((p :: ps).reverse ++ word) ∈ scanIdentifiers (p :: ps) (word ++ after) := by
  induction word generalizing p ps with
  | nil =>
      cases after with
      | nil => simp [scanIdentifiers]
      | cons c rest =>
          have hc : isWord c = false := hafter c (by simp)
          simp [scanIdentifiers, hc]
  | cons c rest ih =>
      have hc : isWord c = true := hword c (by simp)
      have hrest := ih (fun c' hc' => hword c' (by simp [hc'])) c (p :: ps)
      simpa [scanIdentifiers, hc] using hrest

/-- A word that starts like an identifier is found by the scan. -/
theorem mem_identifiers_of_hasWord
    {c : Char} {word : List Char} {text : String}
    (hstart : isScanStart c = true)
    (hword : ∀ c' ∈ word, isWord c' = true)
    (h : HasWord (c :: word) text.toList) :
    String.ofList (c :: word) ∈ identifiers text := by
  obtain ⟨before, after, htext, hbefore, hafter⟩ := h
  have hfound : String.ofList (c :: word) ∈ scanIdentifiers [] ((c :: word) ++ after) := by
    have := scanIdentifiers_word hword hafter c []
    simpa [scanIdentifiers, hstart] using this
  rw [identifiers, htext, List.append_assoc]
  by_cases hnil : before = []
  · simpa [hnil] using hfound
  · obtain ⟨found, hscan⟩ := scanIdentifiers_append hbefore hnil [] ((c :: word) ++ after)
    rw [hscan]
    exact List.mem_append_right found hfound

theorem isScanStart_of_mem_shortLetters {i : Nat} {c : Char}
    (h : c ∈ Name.shortLetters i) :
    isScanStart c = true := by
  have halpha : c.isAlpha = true := isAlpha_iff.2 (.inr (Name.toNat_of_mem_shortLetters h))
  simp [isScanStart, halpha]

end Text

/-- The parameters of a lambda are no whole words of the text that they are chosen for. -/
theorem Name.not_hasWord_of_mem_lambdaParameters
    {count : Nat} {target name : String}
    (h : name ∈ lambdaParameters count target) :
    ¬ Text.HasWord name.toList target.toList := by
  intro hword
  obtain ⟨i, rfl⟩ := exists_short_of_mem_lambdaParameters h
  have hletters : ∀ c ∈ shortLetters i, Text.isScanStart c = true :=
    fun c hc => Text.isScanStart_of_mem_shortLetters hc
  rw [short, String.toList_ofList] at hword
  obtain ⟨c, word, hcons⟩ := List.exists_cons_of_ne_nil (shortLetters_ne_nil i)
  rw [hcons] at hword hletters
  have hfound := Text.mem_identifiers_of_hasWord (hletters c (by simp))
    (fun c' hc' => Text.isWord_of_isScanStart (hletters c' (by simp [hc']))) hword
  rw [← hcons] at hfound
  exact not_mem_identifiers_of_mem_lambdaParameters h hfound

namespace Code
namespace Expr

mutual

/-- The names that an expression refers to, bound ones included. -/
def names : Expr → List String
  | .text _ => []
  | .name ident => [ident]
  | .member target _ _ => target.names
  | .call function args => function.names ++ namesAll args
  | .named _ value => value.names
  | .cast value _ _ => value.names
  | .trailing function block => function.names ++ block.names
  | .implicit body => body.names
  | .lambda _ body => body.names
  | .typed _ _ => []
  | .safeCast value _ => value.names
  | .orElse value other => value.names ++ other.names
  | .dispatch _ _ => []

/-- The names that some expressions refer to. -/
def namesAll : List Expr → List String
  | [] => []
  | e :: rest => e.names ++ namesAll rest

end

open Text in
mutual

/-- Every name that code mentions is a word of its text, by induction over the code. -/
theorem hasWord_source : (e : Expr) → (x : String) → '\n' ∉ x.toList → x ∈ e.names →
    HasWord x.toList e.source.toList
  | .text _, _, _, hx => by simp [names] at hx
  | .name ident, x, _, hx => by
      obtain rfl : x = ident := by simpa [names] using hx
      exact hasWord_self _
  | .member target safe field, x, hline, hx => by
      have h := hasWord_source target x hline hx
      have := h.extend [] ((if safe then "?." else ".").toList ++ field.toList)
        (by simp) (by cases safe <;> simp <;> decide)
      simpa [source] using this
  | .call function args, x, hline, hx => by
      rw [names, List.mem_append] at hx
      rcases hx with hx | hx
      · have h := hasWord_source function x hline hx
        have := h.extend []
          ("(".toList ++ (", ".intercalate (sources args)).toList ++ ")".toList)
          (by simp) (by simp; decide)
        simpa [source] using this
      · have h := hasWord_sources args x hline hx
        have := h.extend (function.source.toList ++ "(".toList) ")".toList
          (by simp; decide) (by simp; decide)
        simpa [source] using this
  | .named label value, x, hline, hx => by
      have h := hasWord_source value x hline hx
      have := h.extend (label.toList ++ " = ".toList) []
        (by simp; decide) (by simp)
      simpa [source] using this
  | .cast value type nullable, x, hline, hx => by
      have h := hasWord_source value x hline hx
      have := h.extend []
        (" as ".toList ++ (castName type).toList ++ (Shape.mark nullable).toList)
        (by simp) (by simp; decide)
      simpa [source] using this
  | .trailing function block, x, hline, hx => by
      rw [names, List.mem_append] at hx
      rcases hx with hx | hx
      · have h := hasWord_source function x hline hx
        have := h.extend [] (" ".toList ++ block.source.toList)
          (by simp) (by simp; decide)
        simpa [source] using this
      · have h := hasWord_source block x hline hx
        have := h.extend (function.source.toList ++ " ".toList) []
          (by simp; decide) (by simp)
        simpa [source] using this
  | .implicit body, x, hline, hx => by
      have h := hasWord_source body x hline hx
      have := h.extend "\x7b ".toList " \x7d".toList
        (by simp; decide) (by simp; decide)
      simpa [source] using this
  | .lambda params body, x, hline, hx => by
      have h := (hasWord_source body x hline hx).hang hline
      obtain ⟨head, hhead⟩ : ∃ head, source (.lambda params body) =
          head ++ Text.indentation ++ Text.hang body.source ++ "\n\x7d" := ⟨_, rfl⟩
      have := h.extend (head.toList ++ Text.indentation.toList) "\n\x7d".toList
        (by simp [indentation]; decide) (by simp; decide)
      simpa [hhead] using this
  | .typed _ _, _, _, hx => by simp [names] at hx
  | .safeCast value type, x, hline, hx => by
      have h := hasWord_source value x hline hx
      have := h.extend "(".toList (" as? ".toList ++ type.toList ++ ")".toList)
        (by simp; decide) (by simp; decide)
      simpa [source] using this
  | .orElse value other, x, hline, hx => by
      rw [names, List.mem_append] at hx
      rcases hx with hx | hx
      · have h := hasWord_source value x hline hx
        have := h.extend [] (" ?: ".toList ++ other.source.toList)
          (by simp) (by simp; decide)
        simpa [source] using this
      · have h := hasWord_source other x hline hx
        have := h.extend (value.source.toList ++ " ?: ".toList) []
          (by simp; decide) (by simp)
        simpa [source] using this
  | .dispatch _ _, _, _, hx => by simp [names] at hx

theorem hasWord_sources : (es : List Expr) → (x : String) → '\n' ∉ x.toList → x ∈ namesAll es →
    HasWord x.toList (", ".intercalate (sources es)).toList
  | [], _, _, hx => by simp [namesAll] at hx
  | e :: rest, x, hline, hx => by
      rw [namesAll, List.mem_append] at hx
      cases rest with
      | nil =>
          have hx : x ∈ e.names := by simpa [namesAll] using hx
          simpa [sources] using hasWord_source e x hline hx
      | cons next rest =>
          rcases hx with hx | hx
          · have h := hasWord_source e x hline hx
            have := h.extend []
              (", ".toList ++ (", ".intercalate (sources (next :: rest))).toList)
              (by simp) (by simp; decide)
            simpa [sources] using this
          · have h := hasWord_sources (next :: rest) x hline hx
            have := h.extend (e.source.toList ++ ", ".toList) []
              (by simp; decide) (by simp)
            simpa [sources] using this

end

/-- The parameters of a lambda are not mentioned by the code that it calls. -/
theorem not_mem_names_of_mem_lambdaParameters
    {count : Nat} {target : Expr} {x : String}
    (h : x ∈ Name.lambdaParameters count target.source) :
    x ∉ target.names := by
  intro hx
  have hline : '\n' ∉ x.toList := by
    obtain ⟨i, rfl⟩ := Name.exists_short_of_mem_lambdaParameters h
    intro hmem
    have hstart : Text.isScanStart '\n' = true :=
      Text.isScanStart_of_mem_shortLetters (by simpa [Name.short] using hmem)
    revert hstart
    decide
  exact Name.not_hasWord_of_mem_lambdaParameters h (hasWord_source target x hline hx)

end Expr
end Code
end Facade
