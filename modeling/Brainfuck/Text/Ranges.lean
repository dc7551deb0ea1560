/-!
# Ranges of code points

A class of characters is given by a table of ranges of code points, with both ends included.
-/

namespace Brainfuck.Text

/-- Whether a character lies in one of some ranges. -/
def inRanges (ranges : List (Nat × Nat)) (c : Char) : Bool :=
  ranges.any fun range ↦ range.1 ≤ c.toNat && c.toNat ≤ range.2

end Brainfuck.Text
