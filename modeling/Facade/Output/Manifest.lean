import Facade.Text.Quoted

/-!
# The manifest of sources

The manifest says for every generated file from which sources it was made, so that a build tool can
tell which files to make anew when a source changes.  It is an object of lists of texts, one text to
a line, with the names of the files in order.  Everything outside the printable ASCII characters is
escaped.

**Results.**
* `escapeChar_ascii`: only printable ASCII characters are written.
-/

namespace Facade
namespace Manifest

/-- The escape of a unit of sixteen bits. -/
def escapeUnit (n : Nat) : List Char :=
  '\\' :: 'u' :: Text.hexDigits 4 n

/-- The escape of a character by its number; one beyond the sixteen-bit units is written as a
pair. -/
def escapeNumber (n : Nat) : List Char :=
  if n < 0x10000 then escapeUnit n
  else escapeUnit (0xd800 + (n - 0x10000) / 0x400) ++ escapeUnit (0xdc00 + (n - 0x10000) % 0x400)

/-- A character of a text as it is written. -/
def escapeChar (c : Char) : List Char :=
  if c = '\x22' then ['\\', '\x22']
  else if c = '\\' then ['\\', '\\']
  else if c = '\n' then ['\\', 'n']
  else if c = '\r' then ['\\', 'r']
  else if c = '\t' then ['\\', 't']
  else if c = '\x08' then ['\\', 'b']
  else if c = '\x0c' then ['\\', 'f']
  else if ' ' ≤ c ∧ c ≤ '~' then [c]
  else escapeNumber c.toNat

theorem hexDigit_ascii :
    ∀ d < 16, ' ' ≤ Text.hexDigit d ∧ Text.hexDigit d ≤ '~' := by
  decide

/-- Four hexadecimal digits after an escape sign can be printed. -/
theorem escapeUnit_ascii
    {n : Nat} {d : Char}
    (h : d ∈ escapeUnit n) :
    ' ' ≤ d ∧ d ≤ '~' := by
  simp only [escapeUnit, List.mem_cons] at h
  rcases h with rfl | rfl | h
  · decide
  · decide
  · obtain ⟨k, hk, rfl⟩ := Text.mem_hexDigits h
    exact hexDigit_ascii k hk

theorem escapeNumber_ascii
    {n : Nat} {d : Char}
    (h : d ∈ escapeNumber n) :
    ' ' ≤ d ∧ d ≤ '~' := by
  rw [escapeNumber] at h
  split at h
  · exact escapeUnit_ascii h
  · rcases List.mem_append.1 h with h | h <;> exact escapeUnit_ascii h

/-- A character of a manifest is written with printable characters of ASCII only. -/
theorem escapeChar_ascii
    {c d : Char}
    (h : d ∈ escapeChar c) :
    ' ' ≤ d ∧ d ≤ '~' := by
  have short : ∀ {e : Char}, d ∈ ['\\', e] → ' ' ≤ e ∧ e ≤ '~' → ' ' ≤ d ∧ d ≤ '~' := by
    intro e hd he
    rcases List.mem_cons.1 hd with rfl | hd
    · decide
    · exact List.mem_singleton.1 hd ▸ he
  simp only [escapeChar] at h
  split at h
  · exact short h (by decide)
  split at h
  · exact short h (by decide)
  split at h
  · exact short h (by decide)
  split at h
  · exact short h (by decide)
  split at h
  · exact short h (by decide)
  split at h
  · exact short h (by decide)
  split at h
  · exact short h (by decide)
  split at h
  · next hc => exact List.mem_singleton.1 h ▸ hc
  · exact escapeNumber_ascii h

/-- A text as it is written. -/
def escape (s : String) : String :=
  "\x22" ++ String.ofList (s.toList.flatMap escapeChar) ++ "\x22"

/-- Items between brackets, each on a line of its own. -/
def block (opening closing margin : String) (items : List String) : String :=
  if items.isEmpty then opening ++ closing
  else
    opening ++ ",".intercalate (items.map fun item => "\n" ++ margin ++ "  " ++ item) ++
      "\n" ++ margin ++ closing

/-- The entry of a file. -/
def entryText (entry : String × List String) : String :=
  escape entry.1 ++ ": " ++ block "[" "]" "  " (entry.2.map escape)

/-- Whether the entry of a file comes before another one. -/
def entryLe (a b : String × List String) : Bool :=
  decide (a.1 ≤ b.1)

/-- The text of a manifest. -/
def render (entries : List (String × List String)) : String :=
  block "\x7b" "\x7d" "" ((entries.mergeSort entryLe).map entryText) ++ "\n"

end Manifest
end Facade
