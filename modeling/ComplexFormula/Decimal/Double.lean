/-
# Doubles as exact numbers

A binary64 number is not a number, an infinity, or a sign and an exact rational.

* `Double.ofFloat` : the exact value that the 64 bits of a float denote;
* `Double.toFloat` : the float nearest to an exact value, ties going to the even
  mantissa and values beyond the largest finite float to infinity.
-/
import ComplexFormula.Decimal.Rounding

namespace ComplexFormula

/-- What a binary64 number denotes. A zero keeps its sign. -/
inductive Double where
  | nan
  | infinite (negative : Bool)
  | finite (negative : Bool) (magnitude : Rat)
  deriving DecidableEq

namespace Double

/-! ## The fields of the bits -/

/-- The value of the sign bit, `2 ^ 63`. -/
def signBit : Nat := 0x8000000000000000

/-- The value of the lowest bit of the exponent, `2 ^ 52`; the fraction is below it. -/
def exponentBit : Nat := 0x10000000000000

/-- The exponent that marks infinities and numbers that are none. -/
def specialExponent : Nat := 2047

/-- The bits of positive infinity. -/
def infinityBits : Nat := specialExponent * exponentBit

/-! ## Reading the bits -/

/-- The number denoted by 64 bits: a sign, eleven bits of exponent and fifty-two
bits of fraction. -/
def ofBits (bits : Nat) : Double :=
  let negative := decide (signBit ≤ bits)
  let exponent : Nat := bits % signBit / exponentBit
  let fraction : Nat := bits % exponentBit
  if exponent = specialExponent then
    if fraction = 0 then infinite negative else nan
  else if exponent = 0 then
    finite negative (fraction * (2 : Rat) ^ (-1074 : Int))
  else
    let mantissa : Nat := exponentBit + fraction
    finite negative (mantissa * (2 : Rat) ^ ((exponent : Int) - 1075))

/-- The exact value of a float. -/
def ofFloat (x : Float) : Double :=
  ofBits x.toBits.toNat

/-- The rational value of a finite number. -/
def toRat? : Double → Option Rat
  | finite negative magnitude => some (if negative then -magnitude else magnitude)
  | _ => none

/-! ## Writing the bits -/

/-- The bits of the nonnegative float nearest to `x`. With the quantum `2 ^ q` of its
binade, a value `m * 2 ^ q` has the bits `(q + 1074) * 2 ^ 52 + m`, also where rounding
carries `m` into the next binade and where the number is subnormal. -/
def magnitudeBits (x : Rat) : Nat :=
  if x ≤ 0 then 0
  else
    let quantum := max (-1074) (binaryOrder x - 52)
    let mantissa := nearestEven (x / (2 : Rat) ^ quantum)
    min infinityBits ((quantum + 1074).toNat * exponentBit + mantissa.toNat)

/-- The sign bit of a number. -/
def signBits (negative : Bool) : Nat := if negative then signBit else 0

/-- The 64 bits of the float nearest to a number. -/
def toBits : Double → Nat
  | nan => infinityBits + 1
  | infinite negative => signBits negative + infinityBits
  | finite negative magnitude => signBits negative + magnitudeBits magnitude

/-- The float nearest to a number. -/
def toFloat (x : Double) : Float :=
  Float.ofBits (UInt64.ofNat x.toBits)

end Double

end ComplexFormula
