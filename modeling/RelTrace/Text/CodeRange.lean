/-!
# Ranges of code points

Properties of characters are given by the ranges of code points that have them.
-/

namespace RelTrace.Text

/-- The character lies in one of the ranges, both ends included. -/
def inRanges (ranges : List (Nat × Nat)) (c : Char) : Bool :=
  ranges.any fun (first, last) => first ≤ c.toNat && c.toNat ≤ last

end RelTrace.Text
