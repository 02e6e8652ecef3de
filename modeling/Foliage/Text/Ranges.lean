/-!
# Character classes

A class of characters is a list of ranges of code points, in ascending order.
-/

namespace Foliage.Text

/-- The code point of `c` lies in one of the ranges, both ends included. -/
def inRanges (ranges : List (Nat × Nat)) (c : Char) : Bool :=
  ranges.any fun r => r.1 ≤ c.toNat && c.toNat ≤ r.2

end Foliage.Text
