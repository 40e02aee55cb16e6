/-!
# Ranges of code points

A property of characters that a standard fixes by listing code points is kept as a list of closed
ranges, ascending and apart from each other. This module has the type of such a list and the test
for membership; the listings themselves stand in the modules named for their property.
-/

namespace Retouch.Text

/-- Closed ranges of code points, first and last of each. -/
abbrev CodePointRanges := List (Nat × Nat)

/-- Whether one of the ranges holds the code point `n`. -/
def CodePointRanges.contains (ranges : CodePointRanges) (n : Nat) : Bool :=
  ranges.any fun range => range.1 ≤ n && n ≤ range.2

/-- The ranges hold exactly the code points between the ends of one of them. -/
theorem CodePointRanges.contains_iff (ranges : CodePointRanges) (n : Nat) :
    ranges.contains n = true ↔ ∃ range ∈ ranges, range.1 ≤ n ∧ n ≤ range.2 := by
  simp [CodePointRanges.contains]

end Retouch.Text
