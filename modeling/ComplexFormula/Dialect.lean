/-
# Dialects

What a formula may contain: a dialect switches the features of the notation on or off and
limits its nesting.
-/

namespace ComplexFormula

/-- The notation of formulas. By default every feature is on. -/
structure Dialect where
  /-- Names such as `sin`, followed by a parenthesis, are function calls. -/
  functions : Bool := true
  /-- A whole run of letters is one name; otherwise each letter is. -/
  longNames : Bool := true
  /-- Neighbouring operands such as `2x` are multiplied. -/
  impliedProducts : Bool := true
  /-- How many groups, calls and roots may be open at once. -/
  nestingLimit : Nat := 256
  deriving DecidableEq

end ComplexFormula
