/-!
# Ranges of code points

A character class is given as an ascending list of closed ranges of code points.
-/

namespace Facade
namespace Text

/-- A set of code points as a list of closed ranges. -/
abbrev Ranges := List (Nat × Nat)

namespace Ranges

/-- Whether the code point of `c` lies in one of the ranges. -/
def contains (ranges : Ranges) (c : Char) : Bool :=
  ranges.any fun r => r.1 ≤ c.toNat && c.toNat ≤ r.2

end Ranges

end Text
end Facade
