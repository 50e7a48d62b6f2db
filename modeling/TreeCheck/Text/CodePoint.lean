/-
Sets of code points, as tables of ranges.
-/

namespace TreeCheck.CodePoint

/-- Ranges of code points, each with both ends. -/
abbrev Ranges := List (Nat × Nat)

/-- Whether a code point lies in one of some ranges. -/
def Ranges.has (ranges : Ranges) (code : Nat) : Bool :=
  ranges.any fun (low, high) => low ≤ code && code ≤ high

end TreeCheck.CodePoint
