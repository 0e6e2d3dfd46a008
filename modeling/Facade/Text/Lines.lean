import Facade.Text.Blank

/-!
# Lines and pieces of text

**Input.**  A text, seen as its list of characters.

**Algorithm.**  A text is cut at every occurrence of a separator; lines are the pieces between line
ends.  A snippet of several lines is moved to the right either by indenting what follows each line
end, or line by line with blank lines left empty.

**Results.**
* `intercalate_pieces`: the pieces, joined by the separator, give the text back.
* `pieces_intercalate`: pieces that do not hold the separator are given back by their text.
* `lines_unlines`: the lines of joined texts are the lines of each.
* `afterChars?_eq_some_iff`, `cutFirst?_append` and `cutLast?_append`: where a text is cut.
-/

namespace Facade
namespace Text

/-- The pieces of a list of characters between the occurrences of `separator`. -/
def pieces (separator : Char) : List Char → List (List Char)
  | [] => [[]]
  | c :: rest =>
      if c = separator then [] :: pieces separator rest
      else
        match pieces separator rest with
        | [] => [[c]]
        | p :: ps => (c :: p) :: ps

/-- A text cut at every occurrence of `separator`. -/
def splitAt (separator : Char) (s : String) : List String :=
  (pieces separator s.toList).map String.ofList

/-- The lines of a text. -/
def lines (s : String) : List String :=
  splitAt '\n' s

/-- Lines joined to a text. -/
def unlines (ls : List String) : String :=
  "\n".intercalate ls

/-- One step of indentation. -/
def indentation : String := "    "

/-- A text with every occurrence of the character `mark` replaced. -/
def replaceChar (mark : Char) (replacement s : String) : String :=
  String.ofList (s.toList.flatMap fun c => if c = mark then replacement.toList else [c])

/-- A snippet whose lines after the first are indented by one step. -/
def hang (s : String) : String :=
  replaceChar '\n' ("\n" ++ indentation) s

/-- A snippet with `margin` before every line that is not blank; blank lines become empty. -/
def indentBy (margin s : String) : String :=
  unlines ((lines s).map fun line => if isAllBlank line then "" else margin ++ line)

/-- A snippet indented by one step. -/
def indent (s : String) : String :=
  indentBy indentation s

/-- What is left of a text after `head`, when it starts with it. -/
def afterChars? : (head text : List Char) → Option (List Char)
  | [], text => some text
  | _ :: _, [] => none
  | h :: hs, c :: cs => if h = c then afterChars? hs cs else none

/-- Whether `tail` ends the text. -/
def endsWithChars (tail text : List Char) : Bool :=
  (afterChars? tail.reverse text.reverse).isSome

/-- The text before and after the first occurrence of `separator`, when there is one. -/
def cutFirst? (separator : Char) : List Char → Option (List Char × List Char)
  | [] => none
  | c :: rest =>
      if c = separator then some ([], rest)
      else (cutFirst? separator rest).map fun (before, after) => (c :: before, after)

/-- The text before and after the last occurrence of `separator`, when there is one. -/
def cutLast? (separator : Char) (cs : List Char) : Option (List Char × List Char) :=
  (cutFirst? separator cs.reverse).map fun (after, before) => (before.reverse, after.reverse)

/-- There is always at least one piece, if only an empty one. -/
theorem pieces_ne_nil
    (separator : Char) (cs : List Char) :
    pieces separator cs ≠ [] := by
  cases cs with
  | nil => simp [pieces]
  | cons c rest =>
      rw [pieces]
      split
      · simp
      · split <;> simp

/-- The pieces, joined by the separator, give the text back. -/
theorem intercalate_pieces
    (separator : Char) (cs : List Char) :
    [separator].intercalate (pieces separator cs) = cs := by
  induction cs with
  | nil => rfl
  | cons c rest ih =>
      rw [pieces]
      split
      · next h =>
          subst h
          cases hp : pieces c rest with
          | nil => exact absurd hp (pieces_ne_nil c rest)
          | cons p ps =>
              rw [hp] at ih
              simp [List.intercalate, List.intersperse] at ih ⊢
              exact ih
      · cases hp : pieces separator rest with
        | nil => exact absurd hp (pieces_ne_nil separator rest)
        | cons p ps =>
            rw [hp] at ih
            cases ps <;> simp_all [List.intercalate, List.intersperse]

/-- Every separator is a place where the text is cut. -/
theorem pieces_append_separator
    (separator : Char) (before after : List Char) :
    pieces separator (before ++ separator :: after) =
      pieces separator before ++ pieces separator after := by
  induction before with
  | nil => simp [pieces]
  | cons c rest ih =>
      rw [List.cons_append, pieces, pieces, ih]
      split
      · rfl
      · cases hpieces : pieces separator rest with
        | nil => exact absurd hpieces (pieces_ne_nil separator rest)
        | cons piece others => rfl

theorem pieces_of_not_mem
    {separator : Char} {cs : List Char}
    (h : separator ∉ cs) :
    pieces separator cs = [cs] := by
  induction cs with
  | nil => rfl
  | cons c rest ih =>
      obtain ⟨hc, hrest⟩ := List.ne_and_not_mem_of_not_mem_cons h
      rw [pieces, if_neg (Ne.symm hc), ih hrest]

/-- No piece holds the separator. -/
theorem mem_of_mem_pieces
    {separator c : Char} {cs piece : List Char}
    (hpiece : piece ∈ pieces separator cs)
    (hc : c ∈ piece) :
    c ∈ cs ∧ c ≠ separator := by
  induction cs generalizing piece with
  | nil =>
      obtain rfl : piece = [] := by simpa [pieces] using hpiece
      exact absurd hc List.not_mem_nil
  | cons d rest ih =>
      have later : ∀ {piece}, piece ∈ pieces separator rest → c ∈ piece →
          c ∈ d :: rest ∧ c ≠ separator := fun hpiece hc =>
        ⟨List.mem_cons_of_mem _ (ih hpiece hc).1, (ih hpiece hc).2⟩
      rw [pieces] at hpiece
      split at hpiece
      · rcases List.mem_cons.1 hpiece with rfl | hpiece
        · exact absurd hc List.not_mem_nil
        · exact later hpiece hc
      · next hd =>
          cases hpieces : pieces separator rest with
          | nil => exact absurd hpieces (pieces_ne_nil separator rest)
          | cons first others =>
              rw [hpieces] at hpiece later
              rcases List.mem_cons.1 hpiece with rfl | hpiece
              · rcases List.mem_cons.1 hc with rfl | hc
                · exact ⟨List.mem_cons_self, hd⟩
                · exact later List.mem_cons_self hc
              · exact later (List.mem_cons_of_mem _ hpiece) hc

/-- Pieces that do not hold the separator can be told from the text that they make. -/
theorem pieces_intercalate
    {separator : Char} {ps : List (List Char)}
    (hne : ps ≠ [])
    (h : ∀ p ∈ ps, separator ∉ p) :
    pieces separator ([separator].intercalate ps) = ps := by
  induction ps with
  | nil => exact absurd rfl hne
  | cons p rest ih =>
      have hp := pieces_of_not_mem (h p List.mem_cons_self)
      cases rest with
      | nil => simpa using hp
      | cons q others =>
          rw [List.intercalate_cons_cons, List.append_assoc, List.singleton_append,
            pieces_append_separator, hp, ih (by simp) fun r hr => h r (List.mem_cons_of_mem _ hr)]
          rfl

theorem splitAt_of_not_mem
    {separator : Char} {s : String}
    (h : separator ∉ s.toList) :
    splitAt separator s = [s] := by
  simp [splitAt, pieces_of_not_mem h]

theorem mem_of_mem_splitAt
    {separator c : Char} {s piece : String}
    (hpiece : piece ∈ splitAt separator s)
    (hc : c ∈ piece.toList) :
    c ∈ s.toList ∧ c ≠ separator := by
  obtain ⟨cs, hcs, rfl⟩ := List.mem_map.1 hpiece
  exact mem_of_mem_pieces hcs (by simpa using hc)

/-- A line end between two texts keeps their lines apart. -/
theorem lines_append
    (s t : String) :
    lines (s ++ "\n" ++ t) = lines s ++ lines t := by
  have hchars : (s ++ "\n" ++ t).toList = s.toList ++ '\n' :: t.toList := by simp
  rw [lines, splitAt, hchars, pieces_append_separator, List.map_append]
  rfl

/-- The lines of joined texts are the lines of each. -/
theorem lines_unlines
    {ls : List String}
    (hne : ls ≠ []) :
    lines (unlines ls) = ls.flatMap lines := by
  induction ls with
  | nil => exact absurd rfl hne
  | cons line rest ih =>
      cases rest with
      | nil => simp [unlines]
      | cons next others =>
          have hjoined : unlines (line :: next :: others) =
              line ++ "\n" ++ unlines (next :: others) :=
            String.intercalate_cons_cons
          rw [hjoined, lines_append, ih (by simp)]
          exact List.flatMap_cons.symm

/-- What is left of a text after its head is what follows the head. -/
theorem afterChars?_eq_some_iff
    {head text rest : List Char} :
    afterChars? head text = some rest ↔ text = head ++ rest := by
  induction head generalizing text with
  | nil => simp [afterChars?]
  | cons c head ih =>
      cases text with
      | nil => simp [afterChars?]
      | cons d text =>
          rw [afterChars?, Option.ite_none_right_eq_some, ih, List.cons_append, List.cons.injEq,
            eq_comm]

theorem afterChars?_append
    (head rest : List Char) :
    afterChars? head (head ++ rest) = some rest :=
  afterChars?_eq_some_iff.2 rfl

/-- A text is cut where the separator stands for the first time. -/
theorem cutFirst?_eq_some
    {separator : Char} {cs before after : List Char}
    (h : cutFirst? separator cs = some (before, after)) :
    cs = before ++ separator :: after ∧ separator ∉ before := by
  induction cs generalizing before with
  | nil => simp [cutFirst?] at h
  | cons c rest ih =>
      rw [cutFirst?] at h
      split at h
      · next hc =>
          obtain ⟨rfl, rfl⟩ := by simpa using h
          simp [hc]
      · next hc =>
          obtain ⟨⟨b, a⟩, hb, heq⟩ := Option.map_eq_some_iff.1 h
          obtain ⟨rfl, rfl⟩ := by simpa using heq
          obtain ⟨hrest, hnot⟩ := ih hb
          refine ⟨by simp [hrest], ?_⟩
          simp only [List.mem_cons, not_or]
          exact ⟨fun e => hc e.symm, hnot⟩

/-- The first separator is where a text is cut, if none stands before it. -/
theorem cutFirst?_append
    {separator : Char} {before after : List Char}
    (h : separator ∉ before) :
    cutFirst? separator (before ++ separator :: after) = some (before, after) := by
  induction before with
  | nil => simp [cutFirst?]
  | cons c rest ih =>
      rw [List.mem_cons, not_or] at h
      rw [List.cons_append, cutFirst?, if_neg (Ne.symm h.1), ih h.2]
      rfl

theorem cutFirst?_eq_none
    {separator : Char} {cs : List Char}
    (h : separator ∉ cs) :
    cutFirst? separator cs = none := by
  induction cs with
  | nil => rfl
  | cons c rest ih =>
      rw [List.mem_cons, not_or] at h
      rw [cutFirst?, if_neg (Ne.symm h.1), ih h.2]
      rfl

/-- The last separator is where a text is cut, if none stands after it. -/
theorem cutLast?_append
    {separator : Char} {before after : List Char}
    (h : separator ∉ after) :
    cutLast? separator (before ++ separator :: after) = some (before, after) := by
  have hreverse : (before ++ separator :: after).reverse =
      after.reverse ++ separator :: before.reverse := by simp
  rw [cutLast?, hreverse, cutFirst?_append (by simpa using h)]
  simp

theorem cutLast?_eq_none
    {separator : Char} {cs : List Char}
    (h : separator ∉ cs) :
    cutLast? separator cs = none := by
  rw [cutLast?, cutFirst?_eq_none (by simpa using h)]
  rfl

end Text
end Facade
