/-
# Complex numbers

Pairs of floats and their arithmetic. The operations are those of the schoolbook formulas,
carried out on floats in the order in which they are written here.
-/

namespace ComplexFormula

/-- A complex number in rectangular form. -/
structure Complex where
  re : Float
  im : Float
  deriving DecidableEq

namespace Complex

/-- The complex number of a real one. -/
def ofReal (x : Float) : Complex := ⟨x, 0⟩

/-- The imaginary unit. -/
def unit : Complex := ⟨0, 1⟩

/-- The zero of both parts. -/
def zero : Complex := ⟨0, 0⟩

/-- Whether both parts are zero, of either sign. -/
def isZero (z : Complex) : Bool := z.re == 0 && z.im == 0

/-! ## Arithmetic -/

/-- The sum, part by part. -/
def add (z w : Complex) : Complex := ⟨z.re + w.re, z.im + w.im⟩

/-- The difference, part by part. -/
def sub (z w : Complex) : Complex := ⟨z.re - w.re, z.im - w.im⟩

/-- The product. -/
def mul (z w : Complex) : Complex :=
  ⟨z.re * w.re - z.im * w.im, z.re * w.im + z.im * w.re⟩

instance : Add Complex := ⟨add⟩
instance : Sub Complex := ⟨sub⟩
instance : Mul Complex := ⟨mul⟩

/-- Both parts multiplied by a real number. -/
def scale (z : Complex) (k : Float) : Complex := ⟨z.re * k, z.im * k⟩

/-- The number reflected in the real axis. -/
def conjugate (z : Complex) : Complex := ⟨z.re, -z.im⟩

/-- The square of the modulus. -/
def normSquared (z : Complex) : Float := z.re * z.re + z.im * z.im

/-- The quotient, by way of the conjugate of the divisor. There is none where the squared
modulus of the divisor is zero, which it also is when it underflows. -/
def div? (z w : Complex) : Option Complex :=
  let divisor := w.normSquared
  if divisor == 0 then none
  else
    let numerator := z * w.conjugate
    some ⟨numerator.re / divisor, numerator.im / divisor⟩

end Complex

end ComplexFormula
