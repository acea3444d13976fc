/-
# Powers and roots

Real powers of complex numbers through the polar form, and exact square roots of real
numbers.
-/
import ComplexFormula.Complex.Basic
import ComplexFormula.Decimal.Double

namespace ComplexFormula

/-! ## Square roots of exact numbers -/

/-- The largest whole number whose square is at most `n`, one binary digit at a time. -/
def integerRoot (n : Nat) : Nat :=
  if n = 0 then 0
  else
    let r := 2 * integerRoot (n / 4)
    if (r + 1) * (r + 1) ≤ n then r + 1 else r

/-- The float nearest to the square root of a positive rational. The root is first taken to
64 binary digits; a half more stands for all that is left, since no float and no middle
between two floats lies further down. -/
def squareRoot (x : Rat) : Float :=
  let order := (binaryOrder x).fdiv 2 - 63
  let scaled := x / (2 : Rat) ^ (2 * order)
  let root := integerRoot scaled.floor.toNat
  let value : Rat := if (root * root : Nat) = scaled then root else root + 1 / 2
  (Double.finite false (value * (2 : Rat) ^ order)).toFloat

namespace Complex

/-- The distance from zero. It is infinite as soon as one part is. -/
def modulus (z : Complex) : Float :=
  match Double.ofFloat z.re, Double.ofFloat z.im with
  | .infinite _, _ => (Double.infinite false).toFloat
  | _, .infinite _ => (Double.infinite false).toFloat
  | .finite _ x, .finite _ y =>
    if x = 0 ∧ y = 0 then 0 else squareRoot (x * x + y * y)
  | _, _ => Double.nan.toFloat

/-- The angle from the positive real axis, in radians. -/
def angle (z : Complex) : Float := Float.atan2 z.im z.re

/-- The number with the given modulus and angle. -/
def ofPolar (modulus angle : Float) : Complex :=
  ⟨modulus * angle.cos, modulus * angle.sin⟩

/-- A real power, through the polar form. A positive power of zero is exactly zero. -/
def pow (z : Complex) (exponent : Float) : Complex :=
  if z.isZero && exponent > 0 then zero
  else ofPolar (z.modulus.pow exponent) (z.angle * exponent)

/-- The square root of a real number; that of a negative one is purely imaginary. -/
def sqrtReal (x : Float) : Complex :=
  if x ≥ 0 then ⟨x.sqrt, 0⟩ else ⟨0, (-x).sqrt⟩

end Complex

end ComplexFormula
