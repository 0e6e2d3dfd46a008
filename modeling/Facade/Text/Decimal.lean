import Facade.Text.Blank

/-!
# Decimal digits and whole numbers

**Input.**  The decimal digits of all scripts, given by the code points of their zeros.

**Algorithm.**  A run of digits is read in base ten, whatever scripts its digits come from.  A whole
number may carry a sign, blanks around it and single underscores between its digits.
-/

namespace Facade
namespace Text

/-- The code points of the digit zero in every script. -/
def zeros : List Nat :=
  [
    0x30, 0x660, 0x6f0, 0x7c0, 0x966, 0x9e6, 0xa66, 0xae6, 0xb66, 0xbe6, 0xc66, 0xce6, 0xd66, 0xde6,
    0xe50, 0xed0, 0xf20, 0x1040, 0x1090, 0x17e0, 0x1810, 0x1946, 0x19d0, 0x1a80, 0x1a90, 0x1b50,
    0x1bb0, 0x1c40, 0x1c50, 0xa620, 0xa8d0, 0xa900, 0xa9d0, 0xa9f0, 0xaa50, 0xabf0, 0xff10, 0x104a0,
    0x10d30, 0x11066, 0x110f0, 0x11136, 0x111d0, 0x112f0, 0x11450, 0x114d0, 0x11650, 0x116c0,
    0x11730, 0x118e0, 0x11950, 0x11c50, 0x11d50, 0x11da0, 0x16a60, 0x16ac0, 0x16b50, 0x1d7ce,
    0x1d7d8, 0x1d7e2, 0x1d7ec, 0x1d7f6, 0x1e140, 0x1e2f0, 0x1e950, 0x1fbf0
  ]

/-- The value of a decimal digit. -/
def digitValue? (c : Char) : Option Nat :=
  (zeros.find? fun z => z ≤ c.toNat && c.toNat < z + 10).map (c.toNat - ·)

/-- Whether a character is a decimal digit of some script. -/
def isDecimal (c : Char) : Bool :=
  (digitValue? c).isSome

/-- The number written by digits, the most significant first; other characters count as zero. -/
def readDigits (cs : List Char) : Nat :=
  cs.foldl (fun n c => n * 10 + (digitValue? c).getD 0) 0

/-- A nonempty run of digits as a number. -/
def readNat? (cs : List Char) : Option Nat :=
  if !cs.isEmpty && cs.all isDecimal then some (readDigits cs) else none

/-- The digits of a number written with single underscores between digits; `none` when an underscore
stands anywhere else or another character occurs. -/
def ungroup? : List Char → Option (List Char)
  | [] => some []
  | '_' :: _ => none
  | [c] => if isDecimal c then some [c] else none
  | c :: '_' :: d :: rest =>
      if isDecimal c && isDecimal d then (ungroup? (d :: rest)).map (c :: ·) else none
  | c :: rest => if isDecimal c then (ungroup? rest).map (c :: ·) else none

/-- Blanks that may surround a number: all but the information separators. -/
def isNumberBlank (c : Char) : Bool :=
  isBlank c && !(0x1c ≤ c.toNat && c.toNat ≤ 0x1f)

/-- The longest number, counted in digits, that is read. -/
def maxDigits : Nat := 4300

/-- A number that has too many digits to be read. -/
structure Overlong where
  digits : Nat
deriving DecidableEq, Repr

/-- What is said about a number that has too many digits. -/
def Overlong.message (o : Overlong) : String :=
  "Exceeds the limit (" ++ toString maxDigits ++
    " digits) for integer string conversion: value has " ++ toString o.digits ++
    " digits; use sys.set_int_max_str_digits() to increase the limit"

/-- The whole number written without sign. -/
def readUnsigned? (cs : List Char) : Option Nat := do
  let digits ← ungroup? cs
  if digits.length ≤ maxDigits then readNat? digits else none

/-- The whole number a text writes. -/
def readInt? (s : String) : Option Int :=
  let trimmed := ((s.toList.dropWhile isNumberBlank).reverse.dropWhile isNumberBlank).reverse
  match trimmed with
  | '-' :: rest => (readUnsigned? rest).map fun n => -Int.ofNat n
  | '+' :: rest => (readUnsigned? rest).map Int.ofNat
  | cs => (readUnsigned? cs).map Int.ofNat

end Text
end Facade
