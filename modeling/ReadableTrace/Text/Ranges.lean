/-!
# Sets of characters as ranges of code points

A character class that a standard lists by code points is held as a table of closed ranges.
-/

namespace ReadableTrace.Text

/-- Closed ranges of code points: the first and the last of each. -/
structure Ranges where
  pairs : List (Nat × Nat)

namespace Ranges

/-- Whether a character's code point lies in one of the ranges. -/
def covers (r : Ranges) (c : Char) : Bool :=
  r.pairs.any fun p => p.1 ≤ c.toNat && c.toNat ≤ p.2

end Ranges

end ReadableTrace.Text
