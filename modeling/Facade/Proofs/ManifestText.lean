import Facade.Output.Manifest

/-!
# Reading the manifest

The text of a manifest determines its entries, so that it makes sense to speak of the entries of a
written file.

**Input.**  A text that follows a written piece of a manifest.

**Algorithm.**  One character is read from its escape, a text up to its closing quote, and a list of
pieces up to its closing bracket.

**Results.**
* `readChar_escapeChar`: a character can be read from its escape, whatever follows.
* `uniquelyRead_escape`, `uniquelyRead_block` and `uniquelyRead_entryText`: the pieces of a manifest
  can be told from what follows them.
* `perm_of_render`: manifests with the same text have the same entries.
-/

namespace Facade
namespace Manifest

section Characters

/-- The number of a hexadecimal digit. -/
def hexValue (c : Char) : Nat :=
  if c.toNat < 97 then c.toNat - 48 else c.toNat - 87

theorem hexValue_hexDigit :
    ∀ d < 16, hexValue (Text.hexDigit d) = d := by
  decide

/-- Reads the four digits of a unit. -/
def readUnit : List Char → Option (Nat × List Char)
  | a :: b :: c :: d :: rest =>
      some (hexValue a * 4096 + hexValue b * 256 + hexValue c * 16 + hexValue d, rest)
  | _ => none

/-- Reads a character from the digits of its units. -/
def readNumber (cs : List Char) : Option (Char × List Char) :=
  match readUnit cs with
  | none => none
  | some (high, rest) =>
      if 0xd800 ≤ high ∧ high < 0xdc00 then
        (readUnit (rest.drop 2)).map fun (low, rest) =>
          (Char.ofNat (0x10000 + (high - 0xd800) * 0x400 + (low - 0xdc00)), rest)
      else some (Char.ofNat high, rest)

/-- The character that an escape of one letter stands for. -/
def escaped (c : Char) : Char :=
  if c = 'n' then '\n'
  else if c = 'r' then '\r'
  else if c = 't' then '\t'
  else if c = 'b' then '\x08'
  else if c = 'f' then '\x0c'
  else c

/-- Reads a character of a text; a quote ends the text. -/
def readChar : List Char → Option (Char × List Char)
  | '\\' :: 'u' :: rest => readNumber rest
  | '\\' :: c :: rest => some (escaped c, rest)
  | c :: rest => if c = '\x22' then none else some (c, rest)
  | [] => none

/-- Four hexadecimal digits are read as the number they were written for. -/
theorem readUnit_hexDigits {n : Nat}
    (h : n < 0x10000) (rest : List Char) :
    readUnit (Text.hexDigits 4 n ++ rest) = some (n, rest) := by
  have hdigit : ∀ m, hexValue (Text.hexDigit (m % 16)) = m % 16 :=
    fun m => hexValue_hexDigit _ (Nat.mod_lt _ (by decide))
  simp only [Text.hexDigits, List.nil_append, List.cons_append, readUnit, hdigit]
  congr 2
  omega

theorem toNat_valid (c : Char) :
    c.toNat < 0xd800 ∨ 0xdfff < c.toNat ∧ c.toNat < 0x110000 :=
  c.valid

/-- A character that is escaped by its number is read back, also from a pair of surrogates. -/
theorem readNumber_escapeNumber (c : Char) (rest : List Char) :
    readNumber ((escapeNumber c.toNat).drop 2 ++ rest) = some (c, rest) := by
  have hvalid := toNat_valid c
  rw [escapeNumber]
  split
  · next hsmall =>
      rw [readNumber, escapeUnit, List.drop_succ_cons, List.drop_succ_cons, List.drop_zero,
        readUnit_hexDigits hsmall]
      simp only
      rw [if_neg (by omega), Char.ofNat_toNat]
  · next hlarge =>
      have hhigh : 0xd800 + (c.toNat - 0x10000) / 0x400 < 0x10000 := by omega
      have hlow : 0xdc00 + (c.toNat - 0x10000) % 0x400 < 0x10000 := by omega
      simp only [readNumber, escapeUnit, List.drop_succ_cons, List.drop_zero, List.cons_append,
        List.append_assoc, readUnit_hexDigits hhigh, readUnit_hexDigits hlow, Option.map_some]
      rw [if_pos (by omega)]
      have hnumber : 0x10000 + (0xd800 + (c.toNat - 0x10000) / 0x400 - 0xd800) * 0x400 +
          (0xdc00 + (c.toNat - 0x10000) % 0x400 - 0xdc00) = c.toNat := by omega
      rw [hnumber, Char.ofNat_toNat]

theorem escapeNumber_eq (n : Nat) :
    escapeNumber n = '\\' :: 'u' :: (escapeNumber n).drop 2 := by
  rw [escapeNumber]
  split <;> rfl

/-- A character that is escaped is read back. -/
theorem readChar_escapeChar (c : Char) (rest : List Char) :
    readChar (escapeChar c ++ rest) = some (c, rest) := by
  rw [escapeChar]
  split
  · next h => rw [h]; rfl
  split
  · next h => rw [h]; rfl
  split
  · next h => rw [h]; rfl
  split
  · next h => rw [h]; rfl
  split
  · next h => rw [h]; rfl
  split
  · next h => rw [h]; rfl
  split
  · next h => rw [h]; rfl
  split
  · next hquote hslash _ _ _ _ _ _ => simp [readChar, hquote, hslash]
  · rw [escapeNumber_eq, List.cons_append, List.cons_append, readChar]
    exact readNumber_escapeNumber c rest

end Characters

/-- Whatever follows a written value, the value and what follows can be told from the text. -/
def UniquelyRead {α : Type} (write : α → String) : Prop :=
  ∀ a b x y, (write a).toList ++ x = (write b).toList ++ y → a = b ∧ x = y

/-- A quoted text ends at its closing quote, and can be read back. -/
theorem eq_of_flatMap_escapeChar {cs ds x y : List Char}
    (h : cs.flatMap escapeChar ++ '\x22' :: x = ds.flatMap escapeChar ++ '\x22' :: y) :
    cs = ds ∧ x = y := by
  have hquote : ∀ rest, readChar ('\x22' :: rest) = none := fun rest => by simp [readChar]
  induction cs generalizing ds with
  | nil =>
      cases ds with
      | nil => simpa using h
      | cons d ds =>
          -- the first text ends here, the second one goes on
          have hread := congrArg readChar h
          simp [hquote, readChar_escapeChar] at hread
  | cons c cs ih =>
      have hread := congrArg readChar h
      cases ds with
      | nil => simp [hquote, readChar_escapeChar] at hread
      | cons d ds =>
          simp only [List.flatMap_cons, List.append_assoc, readChar_escapeChar, Option.some.injEq,
            Prod.mk.injEq] at hread
          obtain ⟨rfl, hrest⟩ := hread
          obtain ⟨rfl, rfl⟩ := ih hrest
          exact ⟨rfl, rfl⟩

/-- Quoted texts are read in one way only. -/
theorem uniquelyRead_escape :
    UniquelyRead escape := by
  intro a b x y h
  have hinner : a.toList.flatMap escapeChar ++ '\x22' :: x =
      b.toList.flatMap escapeChar ++ '\x22' :: y := by
    simpa [escape] using h
  obtain ⟨hab, rfl⟩ := eq_of_flatMap_escapeChar hinner
  exact ⟨String.toList_inj.1 hab, rfl⟩

section Blocks

/-- The items after the first one. -/
def following (margin : String) (items : List String) : List Char :=
  items.flatMap fun item => ',' :: '\n' :: (margin ++ "  " ++ item).toList

theorem toList_intercalate_lines (margin item : String) (items : List String) :
    (",".intercalate ((item :: items).map fun item => "\n" ++ margin ++ "  " ++ item)).toList =
      '\n' :: (margin ++ "  " ++ item).toList ++ following margin items := by
  induction items generalizing item with
  | nil => simp [following]
  | cons next rest ih =>
      have hnext := ih next
      rw [String.toList_intercalate] at hnext ⊢
      simp only [List.map_cons] at hnext ⊢
      rw [List.intercalate_cons_cons, hnext]
      simp [following]

theorem toList_block_cons (opening closing margin item : String) (items : List String) :
    (block opening closing margin (item :: items)).toList =
      opening.toList ++ '\n' :: ((margin ++ "  ").toList ++ (item.toList ++
        (following margin items ++ '\n' :: (margin ++ closing).toList))) := by
  rw [block, if_neg (by simp)]
  simp only [String.toList_append, toList_intercalate_lines]
  simp

variable {α : Type} {write : α → String}

/-- The items of a block are read back one by one. -/
theorem eq_of_following {margin : String} {as bs : List α} {x y : List Char}
    (hwrite : UniquelyRead write)
    (h : following margin (as.map write) ++ '\n' :: x =
      following margin (bs.map write) ++ '\n' :: y) :
    as = bs ∧ x = y := by
  induction as generalizing bs with
  | nil =>
      cases bs with
      | nil => simpa [following] using h
      | cons b bs => simp [following] at h
  | cons a as ih =>
      cases bs with
      | nil => simp [following] at h
      | cons b bs =>
          have hitem : (write a).toList ++ (following margin (as.map write) ++ '\n' :: x) =
              (write b).toList ++ (following margin (bs.map write) ++ '\n' :: y) := by
            simpa [following] using h
          obtain ⟨rfl, hrest⟩ := hwrite _ _ _ _ hitem
          obtain ⟨rfl, rfl⟩ := ih hrest
          exact ⟨rfl, rfl⟩

/-- A block whose closing bracket does not start with a line end shows whether it is empty. -/
theorem uniquelyRead_block {bracket : Char} {rest : List Char}
    (opening closing margin : String)
    (hwrite : UniquelyRead write)
    (hclosing : closing.toList = bracket :: rest)
    (hbracket : bracket ≠ '\n') :
    UniquelyRead fun items : List α => block opening closing margin (items.map write) := by
  have hempty : (block opening closing margin []).toList = opening.toList ++ bracket :: rest := by
    simp [block, hclosing]
  intro as bs x y h
  dsimp only at h
  cases as with
  | nil =>
      cases bs with
      | nil => simpa [hempty] using h
      | cons b bs =>
          rw [List.map_nil, List.map_cons, hempty, toList_block_cons] at h
          simp [hbracket] at h
  | cons a as =>
      cases bs with
      | nil =>
          rw [List.map_nil, List.map_cons, hempty, toList_block_cons] at h
          simp [hbracket.symm] at h
      | cons b bs =>
          rw [List.map_cons, List.map_cons, toList_block_cons, toList_block_cons] at h
          have hitem : (write a).toList ++ (following margin (as.map write) ++
                '\n' :: ((margin ++ closing).toList ++ x)) =
              (write b).toList ++ (following margin (bs.map write) ++
                '\n' :: ((margin ++ closing).toList ++ y)) := by
            simpa using h
          obtain ⟨rfl, hrest⟩ := hwrite _ _ _ _ hitem
          obtain ⟨rfl, hclosed⟩ := eq_of_following hwrite hrest
          exact ⟨rfl, List.append_cancel_left hclosed⟩

end Blocks

/-- The entries of a manifest are read in one way only. -/
theorem uniquelyRead_entryText :
    UniquelyRead entryText := by
  rintro ⟨key, sources⟩ ⟨key', sources'⟩ x y h
  have hkey : (escape key).toList ++
        (": ".toList ++ ((block "[" "]" "  " (sources.map escape)).toList ++ x)) =
      (escape key').toList ++
        (": ".toList ++ ((block "[" "]" "  " (sources'.map escape)).toList ++ y)) := by
    simpa [entryText] using h
  obtain ⟨rfl, hrest⟩ := uniquelyRead_escape _ _ _ _ hkey
  obtain ⟨rfl, rfl⟩ := uniquelyRead_block "[" "]" "  " uniquelyRead_escape rfl (by decide)
    _ _ _ _ (List.append_cancel_left hrest)
  exact ⟨rfl, rfl⟩

/-- A manifest determines its entries up to their order. -/
theorem perm_of_render {entries entries' : List (String × List String)}
    (h : render entries = render entries') :
    entries.Perm entries' := by
  have htext := congrArg String.toList h
  rw [render, render, String.toList_append, String.toList_append] at htext
  obtain ⟨hsorted, -⟩ := uniquelyRead_block "\x7b" "\x7d" "" uniquelyRead_entryText rfl (by decide)
    _ _ _ _ htext
  exact (List.mergeSort_perm entries entryLe).symm.trans
    (hsorted ▸ List.mergeSort_perm entries' entryLe)

end Manifest
end Facade
