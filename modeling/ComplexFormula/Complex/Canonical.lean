/-
# The canonical form of a complex number

Every value is shown with four decimal places: `5.0000` where the imaginary part is
negligible, `i`, `-i` or `2.5000i` where the real part is, and `1.0000 + 2.0000i` or
`1.0000 - 2.0000i` otherwise.
-/
import ComplexFormula.Complex.Basic
import ComplexFormula.Decimal.Layout

namespace ComplexFormula

namespace Double

/-- Parts nearer to each other than this are shown as equal: the double nearest to
`10 ^ (-9)`. -/
def tolerance : Rat := 4835703278458517 * (2 : Rat) ^ (-82 : Int)

/-- Whether a number is shown as if it were the whole number `n`. -/
def isNear (n : Int) : Double → Bool
  | finite negative magnitude =>
    let value := if negative then -magnitude else magnitude
    decide (n - tolerance < value ∧ value < n + tolerance)
  | _ => false

/-- Whether a number is below zero. -/
def isNegative : Double → Bool
  | nan => false
  | infinite negative => negative
  | finite negative magnitude => negative && magnitude != 0

/-- The number without its sign. -/
def abs : Double → Double
  | nan => nan
  | infinite _ => infinite false
  | finite _ magnitude => finite false magnitude

end Double

namespace Complex

/-- The count of decimal places in the canonical form. -/
def canonicalPlaces : Nat := 4

/-- The characters of the canonical form. -/
def canonicalChars (z : Complex) : List Char :=
  let re := Double.ofFloat z.re
  let im := Double.ofFloat z.im
  let part := Double.fixed canonicalPlaces
  if im.isNear 0 then part re
  else if re.isNear 0 then
    if im.isNear 1 then ['i']
    else if im.isNear (-1) then ['-', 'i']
    else part im ++ ['i']
  else if im.isNegative then part re ++ [' ', '-', ' '] ++ part im.abs ++ ['i']
  else part re ++ [' ', '+', ' '] ++ part im ++ ['i']

/-- The canonical form. -/
def canonical (z : Complex) : String :=
  String.ofList z.canonicalChars

end Complex

end ComplexFormula
