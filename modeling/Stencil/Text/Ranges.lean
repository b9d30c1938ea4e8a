/-!
# Sets of characters as ranges

A property of Unicode is a list of ranges of code points, in ascending order, both ends included.
-/

namespace Stencil.Text

/-- Ranges of code points, both ends included. -/
abbrev Ranges := List (Nat × Nat)

/-- Whether a code point lies in one of the ranges. -/
def Ranges.has (ranges : Ranges) (n : Nat) : Bool := ranges.any fun (low, high) => low ≤ n && n ≤ high

end Stencil.Text
