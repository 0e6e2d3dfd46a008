import Facade.Files.Archive

/-!
# Archives as bytes

**Input.**  The bytes of a file.

**Algorithm.**  The record at the end of an archive tells where its directory is, and the
directory has a header for every entry.  An entry that is stored as it is may be an archive in
turn; of other entries only the names matter.
-/

namespace Facade
namespace Zip

/-- The number written by `count` bytes from a position on, the least significant first; bytes
beyond the end are zero. -/
def number (bytes : ByteArray) (position : Nat) : (count : Nat) → Nat
  | 0 => 0
  | count + 1 => (bytes.data.getD position 0).toNat + 256 * number bytes (position + 1) count

/-- The mark in front of the record at the end. -/
def endMark : Nat := 0x06054b50

/-- The mark in front of a header. -/
def headerMark : Nat := 0x02014b50

/-- The length of the record at the end. -/
def endLength : Nat := 22

/-- The last position below a bound at which the record at the end may start. -/
def endBelow? (bytes : ByteArray) : (bound : Nat) → Option Nat
  | 0 => none
  | position + 1 =>
      if number bytes position 4 = endMark then some position else endBelow? bytes position

/-- What a header says about an entry. -/
structure Header where
  name : String
  /-- Whether the entry is stored as it is. -/
  isStored : Bool
  size : Nat
  /-- The position of the entry. -/
  position : Nat

/-- The header at a position. -/
def headerAt (bytes : ByteArray) (position : Nat) : Header :=
  let nameStart := position + 46
  let name := bytes.extract nameStart (nameStart + number bytes (position + 28) 2)
  { name := Entries.nameOf ((String.fromUTF8? name).getD "")
    isStored := number bytes (position + 10) 2 = 0
    size := number bytes (position + 24) 4
    position := number bytes (position + 42) 4 }

/-- The position after the header at a position. -/
def afterHeader (bytes : ByteArray) (position : Nat) : Nat :=
  position + 46 + number bytes (position + 28) 2 + number bytes (position + 30) 2 +
    number bytes (position + 32) 2

/-- The headers from a position on. -/
def headersFrom (bytes : ByteArray) : (count position : Nat) → List Header
  | 0, _ => []
  | count + 1, position =>
      if number bytes position 4 = headerMark then
        headerAt bytes position :: headersFrom bytes count (afterHeader bytes position)
      else []

/-- The bytes of an entry that is stored as it is. -/
def storedBytes (bytes : ByteArray) (h : Header) : ByteArray :=
  let start := h.position + 30 + number bytes (h.position + 26) 2 + number bytes (h.position + 28) 2
  if h.isStored then bytes.extract start (start + h.size) else ByteArray.empty

/-- What bytes hold; archives in archives are opened down to a depth. -/
def content : (depth : Nat) → ByteArray → Content
  | 0, _ => .text ""
  | depth + 1, bytes =>
      match endBelow? bytes (bytes.size + 1 - endLength) with
      | none => .text ""
      | some position =>
          let headers :=
            headersFrom bytes (number bytes (position + 10) 2) (number bytes (position + 16) 4)
          .archive (headers.map fun h => (h.name, content depth (storedBytes bytes h)))

end Zip
end Facade
