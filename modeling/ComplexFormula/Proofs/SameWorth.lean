/-
# Complex numbers up to the signs of zeros

An operation on complex numbers hides the sign of a zero in an operand, or passes it on to a zero
of its value, or turns it into another number. The arithmetic passes it on at most, and then one
of the values has a negative zero; a power turns it into another angle; roots and functions hide
that of the imaginary part.

* `Complex.SameWorth` : the parts of two numbers are worth the same;
* `Modifier.ShowsZeros`, `BinaryOperator.ShowsLeft`, `BinaryOperator.ShowsRight` : the operands
  that have zeros whose signs may show in a value;
* `UnaryOperator.apply_congr` : roots and functions see no sign of a zero in the imaginary part;
* `Modifier.agree_of_apply`, `BinaryOperator.agree_of_apply` : operands that are worth the same
  have values that agree, unless the signs of their zeros show.
-/
import Mathlib
import ComplexFormula.Formula.Basic
import ComplexFormula.Proofs.Value
import ComplexFormula.Proofs.Float.ZeroSign

namespace ComplexFormula

/-! ## Complex numbers up to the signs of zeros -/

namespace Complex

/-- The parts of two numbers are worth the same. -/
def SameWorth (z w : Complex) : Prop := worth z.re = worth w.re ∧ worth z.im = worth w.im

variable {z z' w w' : Complex}

/-- A number is worth what it is worth. -/
theorem SameWorth.refl (z : Complex) : SameWorth z z := ⟨rfl, rfl⟩

/-- Two numbers are worth the same in either order. -/
theorem SameWorth.symm (h : SameWorth z w) : SameWorth w z := ⟨h.1.symm, h.2.symm⟩

/-- Both parts are equal as numbers. -/
theorem SameWorth.sameNumber (h : SameWorth z w) :
    sameNumber z.re w.re = true ∧ sameNumber z.im w.im = true :=
  ⟨sameNumber_of_worth_eq h.1, sameNumber_of_worth_eq h.2⟩

/-- The worth of a sum is settled by that of the summands. -/
theorem SameWorth.add (hz : SameWorth z z') (hw : SameWorth w w') :
    SameWorth (z + w) (z' + w') :=
  ⟨worth_add_congr hz.1 hw.1, worth_add_congr hz.2 hw.2⟩

/-- The worth of a difference is settled by that of its parts. -/
theorem SameWorth.sub (hz : SameWorth z z') (hw : SameWorth w w') :
    SameWorth (z - w) (z' - w') :=
  ⟨worth_sub_congr hz.1 hw.1, worth_sub_congr hz.2 hw.2⟩

/-- The worth of a product is settled by that of the factors. -/
theorem SameWorth.mul (hz : SameWorth z z') (hw : SameWorth w w') :
    SameWorth (z * w) (z' * w') :=
  ⟨worth_sub_congr (worth_mul_congr hz.1 hw.1) (worth_mul_congr hz.2 hw.2),
    worth_add_congr (worth_mul_congr hz.1 hw.2) (worth_mul_congr hz.2 hw.1)⟩

/-- The worth of a multiple is settled by that of the number. -/
theorem SameWorth.scale (h : SameWorth z z') (k : Float) :
    SameWorth (z.scale k) (z'.scale k) :=
  ⟨worth_mul_congr h.1 rfl, worth_mul_congr h.2 rfl⟩

/-- The worth of a conjugate is settled by that of the number. -/
theorem SameWorth.conjugate (h : SameWorth z z') : SameWorth z.conjugate z'.conjugate :=
  ⟨h.1, worth_neg_congr h.2⟩

/-- The squared modulus does not depend on the signs of zeros. -/
theorem SameWorth.normSquared_eq (h : SameWorth z z') : z.normSquared = z'.normSquared := by
  rw [normSquared, normSquared, mul_self_congr h.1, mul_self_congr h.2]

/-- The worth of a quotient is settled by that of its parts. -/
theorem SameWorth.div {q q' : Complex} (hz : SameWorth z z') (hw : SameWorth w w')
    (h : z.div? w = some q) (h' : z'.div? w' = some q') : SameWorth q q' := by
  have hproduct := hz.mul hw.conjugate
  unfold div? at h h'
  rw [hw.normSquared_eq] at h
  simp only at h h'
  split at h
  · simp at h
  · next hdivisor =>
    rw [if_neg hdivisor] at h'
    rw [← Option.some.inj h, ← Option.some.inj h']
    exact ⟨worth_div_congr hproduct.1 _, worth_div_congr hproduct.2 _⟩

/-- A difference from zero is worth as much as the opposite. -/
theorem sameWorth_zero_sub (z : Complex) : SameWorth (zero - z) (z.scale (-1)) :=
  ⟨worth_zero_sub_eq_mul_neg_one z.re, worth_zero_sub_eq_mul_neg_one z.im⟩

/-- A difference from zero hides the signs of zeros. -/
theorem SameWorth.zero_sub_eq (h : SameWorth z z') : zero - z = zero - z' :=
  congrArg₂ Complex.mk (zero_sub_congr h.1) (zero_sub_congr h.2)

/-- **A difference from zero is the opposite**, unless a part is a positive zero. -/
theorem zero_sub_eq_scale (hre : z.re ≠ 0) (him : z.im ≠ 0) : zero - z = z.scale (-1) := by
  show (⟨0 - z.re, 0 - z.im⟩ : Complex) = ⟨z.re * (-1), z.im * (-1)⟩
  rw [zero_sub_eq_mul_neg_one hre, zero_sub_eq_mul_neg_one him]

end Complex

/-- The worth of a result is settled by that of the operands, unless it is a power. -/
theorem BinaryOperator.sameWorth_of_apply {op : BinaryOperator} (hop : op ≠ .pow)
    {z z' w w' v v' : Complex} (hz : z.SameWorth z') (hw : w.SameWorth w')
    (h : op.apply z w = .ok v) (h' : op.apply z' w' = .ok v') : v.SameWorth v' := by
  cases op with
  | add =>
    rw [← Except.ok.inj h, ← Except.ok.inj h']
    exact hz.add hw
  | sub =>
    rw [← Except.ok.inj h, ← Except.ok.inj h']
    exact hz.sub hw
  | mul =>
    rw [← Except.ok.inj h, ← Except.ok.inj h']
    exact hz.mul hw
  | div =>
    simp only [apply] at h h'
    split at h
    · next q hq =>
      split at h'
      · next q' hq' =>
        rw [← Except.ok.inj h, ← Except.ok.inj h']
        exact hz.div hw hq hq'
      · simp at h'
    · simp at h
  | pow => exact absurd rfl hop

/-! ## Operations that show the signs of zeros -/

/-- How far two numbers agree: they are identical, or their parts are worth the same. -/
inductive Agreement where
  | exact
  | numeric

namespace Complex

/-- Two numbers agree exactly, or up to the signs of zeros. -/
def Agree : Agreement → Complex → Complex → Prop
  | .exact, z, w => z = w
  | .numeric, z, w => SameWorth z w

/-- Identical numbers agree in both ways. -/
theorem agree_of_eq (agreement : Agreement) {z w : Complex} (h : z = w) : Agree agreement z w := by
  subst h
  cases agreement with
  | exact => rfl
  | numeric => exact .refl z

/-- A part of a number is a negative zero. -/
def HasNegativeZero (z : Complex) : Prop := z.re = -0 ∨ z.im = -0

instance (z : Complex) : Decidable z.HasNegativeZero :=
  inferInstanceAs (Decidable (z.re = -0 ∨ z.im = -0))

end Complex

/-- Whether the sign of a zero in an operand may show in the value of a modifier, given that
operand and the value. A sign passes it on, and so does the root of a real number, but only where
one of the values has a negative zero. The root of any other number takes its angle; a function
takes the real part. -/
def Modifier.ShowsZeros (agreement : Agreement) : Modifier → Complex → Complex → Prop
  | .negation, _, v | .operation .conjugate, _, v => agreement = .exact ∧ v.HasNegativeZero
  | .operation .root, z, v =>
    (z.re == 0) = true ∧ (¬(z.im == 0) = true ∨ agreement = .exact ∧ v.HasNegativeZero)
  | .operation (.call _), z, _ => (z.re == 0) = true

namespace BinaryOperator

/-- Whether the sign of a zero in the left operand may show in the value of an operator, given the
operands and the value. The arithmetic shows it only if the value has a negative zero; a power
takes the angle of the base, unless it is a positive power of zero. -/
def ShowsLeft (agreement : Agreement) : BinaryOperator → Complex → Complex → Complex → Prop
  | pow, z, w, _ => ((z.re == 0) = true ∨ (z.im == 0) = true) ∧ ¬(z.isZero = true ∧ w.re > 0)
  | _, _, _, v => agreement = .exact ∧ v.HasNegativeZero

/-- Whether the sign of a zero in the right operand may show in the value of an operator. -/
def ShowsRight (agreement : Agreement) : BinaryOperator → Complex → Complex → Complex → Prop
  | pow, _, w, _ => (w.re == 0) = true
  | _, _, _, v => agreement = .exact ∧ v.HasNegativeZero

/-- The arithmetic shows the sign of a zero in either operand alike. -/
theorem shows_iff {agreement : Agreement} {op : BinaryOperator} (hop : op ≠ .pow)
    {z w v : Complex} :
    (op.ShowsLeft agreement z w v ↔ agreement = .exact ∧ v.HasNegativeZero) ∧
      (op.ShowsRight agreement z w v ↔ agreement = .exact ∧ v.HasNegativeZero) := by
  cases op with
  | pow => exact absurd rfl hop
  | _ => exact ⟨Iff.rfl, Iff.rfl⟩

end BinaryOperator

/-! ## Results that agree -/

namespace Complex

variable {z z' w w' : Complex}

/-- Numbers that are worth the same are identical, if no part is a zero. -/
theorem SameWorth.eq (h : SameWorth z z') (hparts : ¬((z.re == 0) = true ∨ (z.im == 0) = true)) :
    z = z' := by
  rw [not_or] at hparts
  exact congrArg₂ Complex.mk (eq_of_worth_eq h.1 hparts.1) (eq_of_worth_eq h.2 hparts.2)

/-- Numbers that are worth the same are identical, if neither has a negative zero. -/
theorem SameWorth.eq_of_not_hasNegativeZero (h : SameWorth z z') (hz : ¬z.HasNegativeZero)
    (hz' : ¬z'.HasNegativeZero) : z = z' := by
  rw [HasNegativeZero, not_or] at hz hz'
  exact congrArg₂ Complex.mk (eq_of_worth_of_ne h.1 hz.1 hz'.1) (eq_of_worth_of_ne h.2 hz.2 hz'.2)

/-- Whether a number is zero does not depend on the signs of zeros. -/
theorem SameWorth.isZero_eq (h : SameWorth z z') : z.isZero = z'.isZero := by
  rw [isZero, isZero, beq_zero_congr h.1, beq_zero_congr h.2]

/-- A power does not show the signs of zeros, if there is none in the base, or if it is a positive
power of zero. -/
theorem SameWorth.pow_eq (h : SameWorth z z') (exponent : Float)
    (hshown : ((z.re == 0) = true ∨ (z.im == 0) = true) ∧ ¬(z.isZero = true ∧ exponent > 0) →
      z = z') : z.pow exponent = z'.pow exponent := by
  by_cases hzero : z.isZero = true ∧ exponent > 0
  · have hbase : (z.isZero && exponent > 0) = true := by simpa using hzero
    have hbase' : (z'.isZero && exponent > 0) = true := by rw [← h.isZero_eq, hbase]
    rw [pow, pow, if_pos hbase, if_pos hbase']
  · by_cases hparts : (z.re == 0) = true ∨ (z.im == 0) = true
    · rw [hshown ⟨hparts, hzero⟩]
    · rw [h.eq hparts]

/-- The square root of a zero is a zero. -/
theorem sameWorth_sqrtReal {x y : Float} (h : worth x = worth y) :
    SameWorth (sqrtReal x) (sqrtReal y) := by
  have hroots : sqrtReal 0 = ⟨0, 0⟩ ∧ sqrtReal (-0) = ⟨-0, 0⟩ := by decide +kernel
  have hzeros : SameWorth ⟨0, 0⟩ ⟨-0, 0⟩ := ⟨rfl, rfl⟩
  rcases eq_or_zeros_of_worth_eq h with rfl | ⟨rfl, rfl⟩ | ⟨rfl, rfl⟩
  · exact .refl _
  · rw [hroots.1, hroots.2]
    exact hzeros
  · rw [hroots.1, hroots.2]
    exact hzeros.symm

end Complex

/-- The value of a function is settled by the real part. -/
theorem RealFunction.eq_of_apply {f : RealFunction} {z v : Complex} (h : f.apply z = .ok v) :
    .ofReal (f.realValue z.re) = v := by
  unfold apply at h
  split at h
  · simp at h
  · split at h
    · simp at h
    · exact Except.ok.inj h

/-- **Roots and functions see the real part of an operand**, and no sign of a zero in the
imaginary part. -/
theorem UnaryOperator.apply_congr {op : UnaryOperator} (hop : op ≠ .conjugate)
    {z z' v v' : Complex} (hre : z.re = z'.re) (him : worth z.im = worth z'.im)
    (h : op.apply z = .ok v) (h' : op.apply z' = .ok v') : v = v' := by
  cases op with
  | root =>
    by_cases hreal : (z.im == 0) = true
    · have hreal' : (z'.im == 0) = true := by rw [← beq_zero_congr him, hreal]
      simp only [apply, hreal, hreal', if_true] at h h'
      rw [← Except.ok.inj h, ← Except.ok.inj h', hre]
    · have hequal : z = z' := congrArg₂ Complex.mk hre (eq_of_worth_eq him hreal)
      rw [hequal, h'] at h
      exact (Except.ok.inj h).symm
  | call f => rw [← RealFunction.eq_of_apply h, ← RealFunction.eq_of_apply h', hre]
  | conjugate => exact absurd rfl hop

/-- The root of a real number is a number of the same worth, whatever the sign of a zero is. -/
theorem UnaryOperator.sameWorth_of_apply_root {z z' v v' : Complex} (hsame : z.SameWorth z')
    (hreal : (z.im == 0) = true) (h : root.apply z = .ok v) (h' : root.apply z' = .ok v') :
    v.SameWorth v' := by
  have hreal' : (z'.im == 0) = true := by rw [← beq_zero_congr hsame.2, hreal]
  simp only [apply, hreal, hreal', if_true] at h h'
  rw [← Except.ok.inj h, ← Except.ok.inj h']
  exact Complex.sameWorth_sqrtReal hsame.1

/-- Values that are worth the same agree in either way, unless one has a negative zero and they are
to be identical. -/
theorem Complex.SameWorth.agree {agreement : Agreement} {v v' : Complex} (h : v.SameWorth v')
    (hv : ¬(agreement = .exact ∧ v.HasNegativeZero))
    (hv' : ¬(agreement = .exact ∧ v'.HasNegativeZero)) : v.Agree agreement v' := by
  cases agreement with
  | numeric => exact h
  | exact =>
    exact h.eq_of_not_hasNegativeZero (fun hzero => hv ⟨rfl, hzero⟩) (fun hzero => hv' ⟨rfl, hzero⟩)

/-- **What is made of operands that are worth the same agrees**, unless the signs of their zeros
show. -/
theorem Modifier.agree_of_apply {agreement : Agreement} {op : Modifier} {z z' v v' : Complex}
    (hsame : z.SameWorth z')
    (hshown : op.ShowsZeros agreement z v ∨ op.ShowsZeros agreement z' v' → z = z')
    (h : op.apply z = .ok v) (h' : op.apply z' = .ok v') : v.Agree agreement v' := by
  -- where the operands are identical, nothing else is needed
  by_cases hequal : z = z'
  · rw [hequal, h'] at h
    exact Complex.agree_of_eq agreement (Except.ok.inj h).symm
  have hhidden : ¬op.ShowsZeros agreement z v := fun hz => hequal (hshown (.inl hz))
  have hhidden' : ¬op.ShowsZeros agreement z' v' := fun hz => hequal (hshown (.inr hz))
  cases op with
  | negation =>
    obtain rfl := Except.ok.inj h
    obtain rfl := Except.ok.inj h'
    exact (hsame.scale (-1)).agree hhidden hhidden'
  | operation op =>
    replace h := mapError_eq_ok_iff.1 h
    replace h' := mapError_eq_ok_iff.1 h'
    cases op with
    | conjugate =>
      obtain rfl := Except.ok.inj h
      obtain rfl := Except.ok.inj h'
      exact hsame.conjugate.agree hhidden hhidden'
    | call f =>
      have hre : z.re = z'.re := eq_of_worth_eq hsame.1 hhidden
      exact Complex.agree_of_eq _ (UnaryOperator.apply_congr (by simp) hre hsame.2 h h')
    | root =>
      by_cases hzero : (z.re == 0) = true
      · have hzero' : (z'.re == 0) = true := by rw [← beq_zero_congr hsame.1, hzero]
        have hreal : (z.im == 0) = true := by_contra fun him => hhidden ⟨hzero, .inl him⟩
        exact (UnaryOperator.sameWorth_of_apply_root hsame hreal h h').agree
          (fun hv => hhidden ⟨hzero, .inr hv⟩) (fun hv => hhidden' ⟨hzero', .inr hv⟩)
      · have hre : z.re = z'.re := eq_of_worth_eq hsame.1 hzero
        exact Complex.agree_of_eq _ (UnaryOperator.apply_congr (by simp) hre hsame.2 h h')

/-- Powers are identical, unless the signs of zeros in the base or in the exponent show. -/
theorem BinaryOperator.eq_of_apply_pow {z z' w w' v v' : Complex} (hz : z.SameWorth z')
    (hw : w.SameWorth w')
    (hbase : ((z.re == 0) = true ∨ (z.im == 0) = true) ∧ ¬(z.isZero = true ∧ w.re > 0) → z = z')
    (hexponent : (w.re == 0) = true → w = w') (h : pow.apply z w = .ok v)
    (h' : pow.apply z' w' = .ok v') : v = v' := by
  have hreal : w.re = w'.re := by
    by_cases hzero : (w.re == 0) = true
    · rw [hexponent hzero]
    · exact eq_of_worth_eq hw.1 hzero
  simp only [apply] at h h'
  split at h
  · simp at h
  · split at h'
    · simp at h'
    · rw [← Except.ok.inj h, ← Except.ok.inj h', ← hreal]
      exact hz.pow_eq w.re hbase

/-- **What is made of two operands that are worth the same agrees**, unless the signs of their
zeros show. -/
theorem BinaryOperator.agree_of_apply {agreement : Agreement} {op : BinaryOperator}
    {z z' w w' v v' : Complex} (hz : z.SameWorth z') (hw : w.SameWorth w')
    (hleft : op.ShowsLeft agreement z w v ∨ op.ShowsLeft agreement z' w' v' → z = z')
    (hright : op.ShowsRight agreement z w v ∨ op.ShowsRight agreement z' w' v' → w = w')
    (h : op.apply z w = .ok v) (h' : op.apply z' w' = .ok v') : v.Agree agreement v' := by
  by_cases hpow : op = .pow
  · subst hpow
    exact Complex.agree_of_eq agreement (eq_of_apply_pow hz hw (fun hshown => hleft (.inl hshown))
      (fun hshown => hright (.inl hshown)) h h')
  -- in the arithmetic, both operands show the signs of their zeros or neither does
  rw [(shows_iff hpow).1, (shows_iff hpow).1] at hleft
  rw [(shows_iff hpow).2, (shows_iff hpow).2] at hright
  by_cases hshown : (agreement = .exact ∧ v.HasNegativeZero) ∨ agreement = .exact ∧ v'.HasNegativeZero
  · rw [hleft hshown, hright hshown, h'] at h
    exact Complex.agree_of_eq agreement (Except.ok.inj h).symm
  · rw [not_or] at hshown
    exact (sameWorth_of_apply hpow hz hw h h').agree hshown.1 hshown.2

end ComplexFormula
