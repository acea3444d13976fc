/-
# Decimal layout

A double is written out in decimal digits, rounded once from the exact value with ties to
even.

* `Double.fixed places x` : a fixed number of decimal places, as in `-0.1250`.
-/
import ComplexFormula.Decimal.Double

namespace ComplexFormula

/-! ## Digits -/

/-- The character of a digit below ten. -/
def digitChar (n : Nat) : Char :=
  Char.ofNat ('0'.toNat + n)

/-- The last `width` decimal digits of `n`, with leading zeros. -/
def paddedDigits : (width : Nat) → (n : Nat) → List Char
  | 0, _ => []
  | width + 1, n => paddedDigits width (n / 10) ++ [digitChar (n % 10)]

/-- The decimal digits of `n`, without leading zeros. -/
def decimalDigits (n : Nat) : List Char :=
  if n < 10 then [digitChar n] else decimalDigits (n / 10) ++ [digitChar (n % 10)]

/-! ## Doubles -/

namespace Double

/-- A minus sign where `negative` holds. -/
def signChars (negative : Bool) : List Char :=
  if negative then ['-'] else []

/-- A number with a fixed count of decimal places. A zero is written without a sign, while
a negative number that rounds to zero keeps its sign. -/
def fixed (places : Nat) : Double → List Char
  | nan => ['N', 'a', 'N']
  | infinite negative => signChars negative ++ ['i', 'n', 'f']
  | finite negative magnitude =>
    let units := (nearestEven (magnitude * (10 : Rat) ^ (places : Int))).toNat
    signChars (negative && magnitude != 0) ++ decimalDigits (units / Nat.pow 10 places) ++
      '.' :: paddedDigits places units

end Double

end ComplexFormula
