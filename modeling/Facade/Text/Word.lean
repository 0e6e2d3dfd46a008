import Facade.Text.Letter
import Facade.Text.Numeral
import Facade.Text.Mark
import Facade.Text.Decimal

/-!
# Word characters and identifiers

**Input.**  The tables of letters, numerals and combining marks.

**Algorithm.**  A word character is a letter, a numeral or an underscore.  An identifier starts with
a letter, a letter number or an underscore, and goes on with the same, combining marks, decimal
digits and connecting punctuation; a few compatibility letters are left out of the start.

**Results.**
* `scanIdentifiers` reads the identifiers of a text from left to right; a word that starts with
  anything but an ASCII letter or an underscore is entered at its first such character.
-/

namespace Facade
namespace Text

/-- Letters, numerals and the underscore. -/
def isWord (c : Char) : Bool :=
  if c.toNat < 128 then c.isAlphanum || c == '_'
  else letters.contains c || numerals.contains c

/-- Characters beyond the letters that may start an identifier: letter numbers and a few signs. -/
def identifierSigns : Ranges :=
  [
    (0x16ee, 0x16f0), (0x1885, 0x1886), (0x2118, 0x2118), (0x212e, 0x212e), (0x2160, 0x2182),
    (0x2185, 0x2188), (0x3007, 0x3007), (0x3021, 0x3029), (0x3038, 0x303a), (0xa6e6, 0xa6ef),
    (0x10140, 0x10174), (0x10341, 0x10341), (0x1034a, 0x1034a), (0x103d1, 0x103d5),
    (0x12400, 0x1246e)
  ]

/-- Letters whose compatibility form does not start an identifier. -/
def presentationLetters : Ranges :=
  [
    (0x37a, 0x37a), (0xe33, 0xe33), (0xeb3, 0xeb3), (0x2e2f, 0x2e2f), (0xfc5e, 0xfc63),
    (0xfdfa, 0xfdfb), (0xfe70, 0xfe70), (0xfe72, 0xfe72), (0xfe74, 0xfe74), (0xfe76, 0xfe76),
    (0xfe78, 0xfe78), (0xfe7a, 0xfe7a), (0xfe7c, 0xfe7c), (0xfe7e, 0xfe7e), (0xff9e, 0xff9f)
  ]

/-- Further characters inside an identifier: middle dots, counting signs and connecting
punctuation. -/
def identifierJoiners : Ranges :=
  [
    (0xb7, 0xb7), (0x387, 0x387), (0xe33, 0xe33), (0xeb3, 0xeb3), (0x1369, 0x1371),
    (0x19da, 0x19da), (0x203f, 0x2040), (0x2054, 0x2054), (0xfe33, 0xfe34), (0xfe4d, 0xfe4f),
    (0xff3f, 0xff3f), (0xff9e, 0xff9f)
  ]

/-- Characters an identifier may start with. -/
def isIdentifierStart (c : Char) : Bool :=
  if c.toNat < 128 then c.isAlpha || c == '_'
  else (letters.contains c && !presentationLetters.contains c) || identifierSigns.contains c

/-- Characters an identifier may go on with. -/
def isIdentifierPart (c : Char) : Bool :=
  if c.toNat < 128 then c.isAlphanum || c == '_'
  else isIdentifierStart c || marks.contains c || isDecimal c || identifierJoiners.contains c

/-- Whether a text is an identifier of the Unicode standard. -/
def isIdentifier (s : String) : Bool :=
  match s.toList with
  | [] => false
  | c :: rest => isIdentifierStart c && rest.all isIdentifierPart

/-- Characters at which the scan for identifiers enters a word. -/
def isScanStart (c : Char) : Bool :=
  c.isAlpha || c == '_'

/-- The identifiers of a text; `pending` holds, in reverse, the one being read. -/
def scanIdentifiers : (pending : List Char) → List Char → List String
  | [], [] => []
  | p :: ps, [] => [String.ofList (p :: ps).reverse]
  | [], c :: rest =>
      if isScanStart c then scanIdentifiers [c] rest else scanIdentifiers [] rest
  | p :: ps, c :: rest =>
      if isWord c then scanIdentifiers (c :: p :: ps) rest
      else String.ofList (p :: ps).reverse :: scanIdentifiers [] rest

/-- The identifiers a text mentions, from left to right. -/
def identifiers (s : String) : List String :=
  scanIdentifiers [] s.toList

end Text
end Facade
