/-! Classes of characters given as ranges of their numbers. -/

namespace Radioplay.Text

/-- Is the number in one of the ranges? Both ends of a range belong to it. -/
def inRanges (ranges : List (Nat × Nat)) (n : Nat) : Bool :=
  ranges.any fun r => r.1 ≤ n && n ≤ r.2

end Radioplay.Text
