/-
# Sets of characters given by ranges of code points

A property of characters that a table lists is stored as closed ranges of code points in
increasing order; a character has the property when its code point lies in one of them.
-/

namespace TableKeys.Text

/-- The code point of `c` lies in one of the closed ranges. -/
def inRanges (ranges : Array (Nat × Nat)) (c : Char) : Bool :=
  ranges.any fun range => range.1 ≤ c.toNat && c.toNat ≤ range.2

end TableKeys.Text
