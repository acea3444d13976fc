/-
# Numbers in arguments

A whole number given as an argument: an optional plus sign and decimal digits, with a value
below `2 ^ 64`.
-/
import ComplexFormula.Decimal.Numeral

namespace ComplexFormula

/-- The reasons why an argument is no number. -/
inductive NaturalError where
  | empty
  | badDigit
  | tooLarge
  deriving DecidableEq

/-- The sentence that states a reason. -/
def NaturalError.message : NaturalError → String
  | empty => "cannot parse integer from empty string"
  | badDigit => "invalid digit found in string"
  | tooLarge => "number too large to fit in target type"

/-- The first number that is too large, `2 ^ 64`. -/
def naturalBound : Nat := 0x10000000000000000

/-- Continues a number by digits, up to the first character that is no digit or makes the
number too large. -/
def readNaturalFrom (value : Nat) : List Char → Except NaturalError Nat
  | [] => .ok value
  | c :: rest =>
    if !c.isDigit then .error .badDigit
    else
      let next := value * 10 + Numeral.digitValue c
      if next < naturalBound then readNaturalFrom next rest else .error .tooLarge

/-- Reads a number. -/
def readNatural : List Char → Except NaturalError Nat
  | [] => .error .empty
  | ['+'] => .error .badDigit
  | '+' :: rest => readNaturalFrom 0 rest
  | s => readNaturalFrom 0 s

end ComplexFormula
