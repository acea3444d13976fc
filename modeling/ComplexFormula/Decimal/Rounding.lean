/-
# Rounding

Whole numbers and powers of two near a rational number.

* `nearestEven x` : the whole number nearest to `x`, ties going to the even one;
* `binaryOrder x` : the place of the leading binary digit of `x`.
-/

namespace ComplexFormula

/-! ## The nearest whole number -/

/-- The whole number nearest to `x`; of two that are equally near, the even one. -/
def nearestEven (x : Rat) : Int :=
  let below := x.floor
  let part := x - below
  if part < 1 / 2 then below
  else if 1 / 2 < part then below + 1
  else if below % 2 = 0 then below
  else below + 1

/-! ## The leading place -/

/-- For a positive `x`, the `n` with `2 ^ n ≤ x < 2 ^ (n + 1)`. The lengths of
numerator and denominator leave two candidates. -/
def binaryOrder (x : Rat) : Int :=
  let n : Int := x.num.natAbs.log2 - x.den.log2
  if (2 : Rat) ^ n ≤ x then n else n - 1

end ComplexFormula
