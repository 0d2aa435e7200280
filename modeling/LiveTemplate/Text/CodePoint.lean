/-!
# Sets of code points

A property of characters beyond ASCII is given by closed ranges of code points, ascending and
apart.
-/

namespace LiveTemplate.Text

/-- Membership in a list of closed ranges. -/
def inRanges (ranges : List (Nat × Nat)) (n : Nat) : Bool :=
  ranges.any fun range => range.1 ≤ n && n ≤ range.2

end LiveTemplate.Text
