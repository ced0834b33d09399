/-!
# Sets of code points

A class of characters given as a list of ranges of code points, both ends included.
-/

namespace ChartValues.Text

/-- A set of code points as a list of closed ranges. -/
abbrev Ranges := List (Nat × Nat)

def Ranges.has (ranges : Ranges) (n : Nat) : Bool :=
  ranges.any fun (lo, hi) => lo ≤ n && n ≤ hi

end ChartValues.Text
