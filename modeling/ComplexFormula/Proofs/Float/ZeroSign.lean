/-
# The signs of zeros

The arithmetic of floats carries the sign of a zero along, but no result other than a zero
depends on it, as long as nothing is divided by zero. A difference from zero is the opposite,
as a product with minus one is, except that zero from zero is a positive zero.

* `eq_or_zeros_of_worth_eq` : floats that are worth the same are equal, or they are zeros;
* `worth_add_congr`, `worth_sub_congr`, `worth_mul_congr`, `worth_div_congr` : the worth of a
  result is settled by the worth of the operands;
* `mul_self_congr` : a square does not depend on the sign at all;
* `zero_sub_eq_mul_neg_one` : a difference from zero as a product;
* `zero_sub_congr` : a difference from zero does not depend on the sign of a zero.
-/
import Mathlib
import ComplexFormula.Proofs.Float

namespace ComplexFormula

open Float.Model
open Float.Model.UnpackedFloat (Sign)

/-! ## Floats up to the sign of a zero -/

/-- A float is settled by its number. -/
theorem numberOf_inj {x y : Float} : numberOf x = numberOf y ↔ x = y := by
  obtain ⟨⟨bits, hvalid⟩⟩ := x
  obtain ⟨⟨bits', hvalid'⟩⟩ := y
  rw [← Float.toBits_inj, ← UInt64.toBitVec_inj]
  exact UnpackedFloat.unpack_inj_of_valid hvalid hvalid'

/-- **Floats that are worth the same are equal**, or they are the two zeros. -/
theorem eq_or_zeros_of_worth_eq {x y : Float} (h : worth x = worth y) :
    x = y ∨ x = 0 ∧ y = -0 ∨ x = -0 ∧ y = 0 := by
  have hzero : ∀ {x : Float} {s : Sign}, numberOf x = .zero s → x = 0 ∨ x = -0 := by
    intro x s hs
    cases s with
    | positive => exact Or.inl (numberOf_inj.1 hs)
    | negative => exact Or.inr (numberOf_inj.1 hs)
  rcases eq_or_zero_of_withoutZeroSign_eq h with heq | ⟨s, t, hx, hy⟩
  · exact Or.inl (numberOf_inj.1 heq)
  · rcases hzero hx with rfl | rfl <;> rcases hzero hy with rfl | rfl <;> simp

/-- Floats that are worth the same are equal, unless they are equal to zero. -/
theorem eq_of_worth_eq {x y : Float} (h : worth x = worth y) (hx : ¬(x == 0) = true) : x = y := by
  rcases eq_or_zeros_of_worth_eq h with heq | ⟨rfl, -⟩ | ⟨rfl, -⟩
  · exact heq
  · exact absurd rfl hx
  · exact absurd rfl hx

/-- Floats that are worth the same are equal, unless one of them is the negative zero. -/
theorem eq_of_worth_of_ne {x y : Float} (h : worth x = worth y) (hx : x ≠ -0) (hy : y ≠ -0) :
    x = y := by
  rcases eq_or_zeros_of_worth_eq h with heq | ⟨-, hzero⟩ | ⟨hzero, -⟩
  · exact heq
  · exact absurd hzero hy
  · exact absurd hzero hx

/-- Whether a float is equal to zero is settled by its worth. -/
theorem beq_zero_congr {x y : Float} (h : worth x = worth y) : (x == 0) = (y == 0) := by
  rcases eq_or_zeros_of_worth_eq h with rfl | ⟨rfl, rfl⟩ | ⟨rfl, rfl⟩ <;> rfl

/-! ## Results up to the sign of a zero -/

/-- The worth of a float that was packed is settled by the number without the sign of a
zero. -/
theorem worth_pack_congr {u v : UnpackedFloat} (h : withoutZeroSign u = withoutZeroSign v) :
    worth (.ofModel (Float.Model.pack u)) = worth (.ofModel (Float.Model.pack v)) := by
  rcases eq_or_zero_of_withoutZeroSign_eq h with rfl | ⟨s, t, rfl, rfl⟩
  · rfl
  · have hzero : ∀ r : Sign, worth (.ofModel (Float.Model.pack (.zero r))) = .zero .positive := by
      intro r
      rw [worth, numberOf_pack (by trivial)]
      rfl
    rw [hzero, hzero]

/-- An operation settles its result up to the sign of a zero by its first operand up to the
sign of a zero. -/
def IgnoresZeroSign (op : UnpackedFloat → UnpackedFloat → UnpackedFloat) : Prop :=
  ∀ s t v, withoutZeroSign (op (.zero s) v) = withoutZeroSign (op (.zero t) v)

/-- Its worth is then settled by that of the first operand. -/
theorem IgnoresZeroSign.worth_congr {op : UnpackedFloat → UnpackedFloat → UnpackedFloat}
    (hop : IgnoresZeroSign op) {x x' : Float} (h : worth x = worth x') (v : UnpackedFloat) :
    worth (.ofModel (Float.Model.pack (op (numberOf x) v)))
      = worth (.ofModel (Float.Model.pack (op (numberOf x') v))) := by
  refine worth_pack_congr ?_
  rcases eq_or_zero_of_withoutZeroSign_eq h with heq | ⟨s, t, hx, hx'⟩
  · rw [heq]
  · rw [hx, hx']
    exact hop s t v

section

variable {x x' y y' : Float}

/-- The worth of a sum is settled by the worth of the summands. -/
theorem worth_add_congr (hx : worth x = worth x') (hy : worth y = worth y') :
    worth (x + y) = worth (x' + y') := by
  have hop : IgnoresZeroSign (UnpackedFloat.add Format.binary64) := by
    intro s t v
    cases v with
    | zero r => cases s <;> cases t <;> cases r <;> rfl
    | _ => rfl
  calc worth (x + y) = worth (x' + y) := hop.worth_congr hx _
    _ = worth (y + x') := by rw [float_add_comm]
    _ = worth (y' + x') := hop.worth_congr hy _
    _ = worth (x' + y') := by rw [float_add_comm]

/-- The worth of a difference is settled by the worth of its parts. -/
theorem worth_sub_congr (hx : worth x = worth x') (hy : worth y = worth y') :
    worth (x - y) = worth (x' - y') := by
  rw [float_sub_eq_add_neg, float_sub_eq_add_neg]
  exact worth_add_congr hx (worth_neg_congr hy)

/-- The product of two floats does not depend on their order. -/
theorem float_mul_comm (x y : Float) : x * y = y * x := by
  have hsign : ∀ s t : Sign, s * t = t * s := by rintro (_ | _) (_ | _) <;> rfl
  have hmul : ∀ u v : UnpackedFloat, UnpackedFloat.mul Format.binary64 u v
      = UnpackedFloat.mul Format.binary64 v u := by
    intro u v
    cases u <;> cases v <;>
      simp only [UnpackedFloat.mul, hsign, Nat.mul_comm, Int.add_comm]
  exact congrArg (fun u => Float.ofModel (Float.Model.pack u)) (hmul _ _)

/-- The worth of a product is settled by the worth of the factors. -/
theorem worth_mul_congr (hx : worth x = worth x') (hy : worth y = worth y') :
    worth (x * y) = worth (x' * y') := by
  have hop : IgnoresZeroSign (UnpackedFloat.mul Format.binary64) := by
    intro s t v
    cases v <;> rfl
  calc worth (x * y) = worth (x' * y) := hop.worth_congr hx _
    _ = worth (y * x') := by rw [float_mul_comm]
    _ = worth (y' * x') := hop.worth_congr hy _
    _ = worth (x' * y') := by rw [float_mul_comm]

/-- The worth of a quotient is settled by the worth of the dividend. -/
theorem worth_div_congr (hx : worth x = worth x') (y : Float) :
    worth (x / y) = worth (x' / y) := by
  have hop : IgnoresZeroSign (UnpackedFloat.div Format.binary64) := by
    intro s t v
    cases v <;> rfl
  exact hop.worth_congr hx _

/-- The square of a float does not depend on the sign of a zero. -/
theorem mul_self_congr (h : worth x = worth x') : x * x = x' * x' := by
  refine congrArg (fun u => Float.ofModel (Float.Model.pack u)) ?_
  show UnpackedFloat.mul Format.binary64 (numberOf x) (numberOf x)
    = UnpackedFloat.mul Format.binary64 (numberOf x') (numberOf x')
  rcases eq_or_zero_of_withoutZeroSign_eq h with heq | ⟨s, t, hx, hx'⟩
  · rw [heq]
  · rw [hx, hx']
    cases s <;> cases t <;> rfl

end

/-! ## Differences from zero -/

/-- **A difference from zero is a product with minus one**, unless it is that of zero. -/
theorem zero_sub_eq_mul_neg_one {x : Float} (h : x ≠ 0) : 0 - x = x * (-1) := by
  have hnumber : numberOf x ≠ .zero .positive := fun hx => h (numberOf_inj.1 hx)
  have hsub : UnpackedFloat.sub Format.binary64 (numberOf 0) (numberOf x) = (numberOf x).neg := by
    rw [show numberOf 0 = .zero .positive from rfl]
    cases hx : numberOf x with
    | zero s =>
      cases s with
      | positive => exact absurd hx hnumber
      | negative => rfl
    | _ => rfl
  refine congrArg (fun u => Float.ofModel (Float.Model.pack u)) (hsub.trans ?_)
  exact (mul_one_of_canonical (canonical_numberOf x)).2.symm

/-- A difference from zero is worth as much as the product with minus one. -/
theorem worth_zero_sub_eq_mul_neg_one (x : Float) : worth (0 - x) = worth (x * (-1)) := by
  rw [worth_zero_sub rfl, worth_mul_neg_one]

/-- A difference from zero hides the sign of a zero. -/
theorem zero_sub_congr {x y : Float} (h : worth x = worth y) : 0 - x = 0 - y := by
  rcases eq_or_zeros_of_worth_eq h with rfl | ⟨rfl, rfl⟩ | ⟨rfl, rfl⟩ <;> rfl

end ComplexFormula
