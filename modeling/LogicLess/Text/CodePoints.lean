/-!
# Sets of code points

A character class is given by the closed intervals of its code points.
-/

namespace LogicLess.Text

/-- Whether the code point of `c` lies in one of the closed intervals. -/
def inRanges (ranges : List (Nat × Nat)) (c : Char) : Bool :=
  ranges.any fun r => r.1 ≤ c.toNat && c.toNat ≤ r.2

end LogicLess.Text
