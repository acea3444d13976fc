/-
# Ranges of characters

Sets of characters given by ranges of code points.
-/

namespace ComplexFormula

/-- Whether a number lies in one of some ranges in increasing order, first and last number
included. -/
def inRanges (n : Nat) : List (Nat × Nat) → Bool
  | [] => false
  | (first, last) :: rest =>
    if n < first then false else if n ≤ last then true else inRanges n rest

end ComplexFormula
