/-
# Decimal numerals

Numerals such as `-3`, `.5` or `1.5e-3`: an optional sign, digits with at most one point
and at least one digit, and an optional power of ten.

* `Numeral.read?` : the numeral that a whole text spells;
* `Numeral.toFloat` : the float nearest to the exact value of a numeral;
* `floatOfText?` : the float that a whole text spells, which may also be a word.
-/
import ComplexFormula.Decimal.Double

namespace ComplexFormula

/-- A signed decimal: the number `coefficient * 10 ^ exponent`, negated if `negative`. -/
structure Numeral where
  negative : Bool
  coefficient : Nat
  exponent : Int
  deriving DecidableEq

namespace Numeral

/-! ## Reading -/

/-- The value of a digit character. -/
def digitValue (c : Char) : Nat :=
  c.toNat - '0'.toNat

/-- The number written by a list of digits, continued from `n`. -/
def digitsValue (n : Nat) (digits : List Char) : Nat :=
  digits.foldl (fun value c => value * 10 + digitValue c) n

/-- Splits off a leading sign; the flag tells whether it was a minus. -/
def readSign : List Char → Bool × List Char
  | '-' :: rest => (true, rest)
  | '+' :: rest => (false, rest)
  | rest => (false, rest)

/-- Splits off a leading run of digits. -/
def readDigits (s : List Char) : List Char × List Char :=
  (s.takeWhile Char.isDigit, s.dropWhile Char.isDigit)

/-- Splits off a point and the digits after it, if there is a point. -/
def readFraction : List Char → List Char × List Char
  | '.' :: rest => readDigits rest
  | rest => ([], rest)

/-- Reads the power of ten that ends a numeral: nothing, or an exponent mark, an optional
sign and at least one digit. -/
def readExponent? : List Char → Option Int
  | [] => some 0
  | mark :: rest =>
    if mark = 'e' ∨ mark = 'E' then
      let (negative, rest) := readSign rest
      let (digits, rest) := readDigits rest
      if digits.isEmpty || !rest.isEmpty then none
      else
        let power : Int := digitsValue 0 digits
        some (if negative then -power else power)
    else none

/-- Reads a numeral without a sign. -/
def readUnsigned? (s : List Char) : Option Numeral :=
  let (whole, rest) := readDigits s
  let (fraction, rest) := readFraction rest
  if whole.isEmpty && fraction.isEmpty then none
  else
    (readExponent? rest).map fun power =>
      { negative := false
        coefficient := digitsValue (digitsValue 0 whole) fraction
        exponent := power - fraction.length }

/-- Reads a numeral that spans the whole text. -/
def read? (s : List Char) : Option Numeral :=
  let (negative, rest) := readSign s
  (readUnsigned? rest).map fun numeral => { numeral with negative }

/-- The characters of decimals. -/
def isDecimalChar (c : Char) : Bool :=
  c.isDigit || c == '.' || c == 'e' || c == 'E' || c == '+' || c == '-'

/-! ## Value -/

/-- The magnitude of a numeral. -/
def magnitude (n : Numeral) : Rat :=
  n.coefficient * (10 : Rat) ^ n.exponent

/-- The float nearest to a numeral. A power of ten that is far outside the range of floats
is decided without computing it: the coefficient is at least one and has at most as many
decimal digits as binary ones. -/
def toFloat (n : Numeral) : Float :=
  if n.coefficient = 0 then (Double.finite n.negative 0).toFloat
  else if 400 < n.exponent then (Double.infinite n.negative).toFloat
  else if n.exponent + n.coefficient.log2 + 1 < -400 then (Double.finite n.negative 0).toFloat
  else (Double.finite n.negative n.magnitude).toFloat

end Numeral

/-! ## Floats as texts -/

/-- What a word stands for, in letters of either case. -/
def Double.ofWord? (negative : Bool) (word : List Char) : Option Double :=
  let letters := String.ofList (word.map Char.toLower)
  if letters = "inf" ∨ letters = "infinity" then some (.infinite negative)
  else if letters = "nan" then some .nan
  else none

/-- The float that a whole text spells: the one nearest to a numeral, or, behind an optional
sign, an infinity or no number. -/
def floatOfText? (s : List Char) : Option Float :=
  match Numeral.read? s with
  | some numeral => some numeral.toFloat
  | none =>
    let (negative, word) := Numeral.readSign s
    (Double.ofWord? negative word).map Double.toFloat

end ComplexFormula
