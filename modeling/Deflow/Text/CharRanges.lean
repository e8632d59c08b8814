import Deflow.Text.Basic

/-!
# Sets of characters

A set of characters is given by the inclusive ranges of its code points.
-/

namespace Deflow.Text

/-- Inclusive ranges of code points. -/
abbrev CharRanges := List (Nat × Nat)

/-- Whether one of the ranges holds a character. -/
def CharRanges.contains (ranges : CharRanges) (c : Char) : Bool :=
  ranges.any fun range => range.1 ≤ c.toNat && c.toNat ≤ range.2

end Deflow.Text
