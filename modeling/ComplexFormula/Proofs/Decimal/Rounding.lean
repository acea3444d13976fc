/-
# Rounding to whole numbers

* `abs_nearestEven_sub_le` : rounding is off by half a unit at most;
* `abs_nearestEven_sub_le_abs_sub` : no whole number is nearer than the rounded one;
* `two_pow_binaryOrder_le`, `lt_two_pow_binaryOrder` : the place of the leading binary digit.
-/
import Mathlib
import ComplexFormula.Decimal.Rounding

namespace ComplexFormula

/-! ## The nearest whole number -/

/-- **Rounding is off by half a unit at most.** -/
theorem abs_nearestEven_sub_le (x : Rat) : |nearestEven x - x| ≤ 1 / 2 := by
  have hbelow : (x.floor : Rat) ≤ x := Rat.floor_le x
  have habove : x < ((x.floor + 1 : Int) : Rat) := Rat.lt_floor_add_one x
  push_cast at habove
  unfold nearestEven
  simp only
  -- the part above the whole number below decides between that number and the next one
  split
  · next hpart =>
    rw [abs_le]
    constructor <;> linarith
  · next hpart =>
    have hnext : |((x.floor + 1 : Int) : Rat) - x| ≤ 1 / 2 := by
      push_cast
      rw [abs_le]
      constructor <;> linarith
    split
    · exact hnext
    · split
      · next htie _ =>
        rw [abs_le]
        constructor <;> linarith
      · exact hnext

/-- **No whole number is nearer than the rounded one.** -/
theorem abs_nearestEven_sub_le_abs_sub (x : Rat) (k : Int) :
    |nearestEven x - x| ≤ |k - x| := by
  by_contra hnearer
  rw [not_le] at hnearer
  have hhalf := abs_nearestEven_sub_le x
  -- two whole numbers less than half a unit away are the same
  have hdistance : |((nearestEven x - k : Int) : Rat)| < 1 := by
    push_cast
    calc |(nearestEven x : Rat) - k| ≤ |nearestEven x - x| + |x - k| := abs_sub_le _ _ _
      _ = |nearestEven x - x| + |k - x| := by rw [abs_sub_comm x]
      _ < 1 := by linarith
  have hsame : nearestEven x = k := by
    rw [← Int.cast_abs] at hdistance
    have hlt : |nearestEven x - k| < 1 := by exact_mod_cast hdistance
    rw [Int.abs_lt_one_iff] at hlt
    omega
  rw [hsame] at hnearer
  exact lt_irrefl _ hnearer

/-- What is no more than a whole number is rounded to no more than it. -/
theorem nearestEven_le {x : Rat} {k : Int} (h : x ≤ k) : nearestEven x ≤ k := by
  have hnearest := abs_nearestEven_sub_le_abs_sub x k
  have hhalf := (abs_le.1 (abs_nearestEven_sub_le x)).2
  rw [abs_of_nonneg (by linarith : (0 : Rat) ≤ k - x)] at hnearest
  have hle := (le_abs_self _).trans hnearest
  have hcast : (nearestEven x : Rat) ≤ k := by linarith
  exact_mod_cast hcast

/-- What is no less than a whole number is rounded to no less than it. -/
theorem le_nearestEven {x : Rat} {k : Int} (h : k ≤ x) : k ≤ nearestEven x := by
  have hnearest := abs_nearestEven_sub_le_abs_sub x k
  rw [abs_of_nonpos (by linarith : (k : Rat) - x ≤ 0)] at hnearest
  have hle := (neg_abs_le _).trans' (neg_le_neg hnearest)
  have hcast : (k : Rat) ≤ nearestEven x := by linarith
  exact_mod_cast hcast

/-! ## The leading binary digit -/

/-- The leading digit of a whole number stands at its logarithm. -/
theorem two_pow_log2_le_lt {n : Nat} (hn : n ≠ 0) :
    (2 : Rat) ^ (n.log2 : Int) ≤ n ∧ (n : Rat) < 2 ^ ((n.log2 : Int) + 1) := by
  have hlower : 2 ^ n.log2 ≤ n := Nat.log2_self_le hn
  have hupper : n < 2 ^ (n.log2 + 1) := Nat.lt_log2_self
  constructor
  · rw [zpow_natCast]
    exact_mod_cast hlower
  · rw [← Nat.cast_succ, zpow_natCast]
    exact_mod_cast hupper

section

variable {x : Rat} (hx : 0 < x)

include hx

/-- The lengths of numerator and denominator settle the order up to one. -/
theorem two_pow_log2_sub_log2 :
    (2 : Rat) ^ ((x.num.natAbs.log2 : Int) - x.den.log2 - 1) ≤ x ∧
      x < 2 ^ ((x.num.natAbs.log2 : Int) - x.den.log2 + 1) := by
  have hnum : x.num.natAbs ≠ 0 := by
    have := Rat.num_pos.2 hx
    omega
  obtain ⟨hnumerator, hnumerator'⟩ := two_pow_log2_le_lt hnum
  obtain ⟨hdenominator, hdenominator'⟩ := two_pow_log2_le_lt x.den_nz
  have hden : (0 : Rat) < x.den := by exact_mod_cast x.den_pos
  have hquotient : (x.num.natAbs : Rat) = x * x.den := by
    rw [Nat.cast_natAbs, abs_of_nonneg (Rat.num_nonneg.2 hx.le), Rat.mul_den_eq_num]
  rw [hquotient] at hnumerator hnumerator'
  constructor
  · rw [show (x.num.natAbs.log2 : Int) - x.den.log2 - 1
        = x.num.natAbs.log2 - (x.den.log2 + 1) by omega, zpow_sub₀ (by norm_num),
      div_le_iff₀ (by positivity)]
    calc (2 : Rat) ^ (x.num.natAbs.log2 : Int) ≤ x * x.den := hnumerator
      _ ≤ x * 2 ^ ((x.den.log2 : Int) + 1) := by gcongr
  · rw [show (x.num.natAbs.log2 : Int) - x.den.log2 + 1
        = x.num.natAbs.log2 + 1 - x.den.log2 by omega, zpow_sub₀ (by norm_num),
      lt_div_iff₀ (by positivity)]
    calc x * 2 ^ (x.den.log2 : Int) ≤ x * x.den := by gcongr
      _ < 2 ^ ((x.num.natAbs.log2 : Int) + 1) := hnumerator'

/-- **The leading binary digit of a number** stands at its order: no further up, -/
theorem two_pow_binaryOrder_le : (2 : Rat) ^ binaryOrder x ≤ x := by
  unfold binaryOrder
  simp only
  split
  · next hle => exact hle
  · exact (two_pow_log2_sub_log2 hx).1

/-- and no further down. -/
theorem lt_two_pow_binaryOrder : x < (2 : Rat) ^ (binaryOrder x + 1) := by
  unfold binaryOrder
  simp only
  split
  · exact (two_pow_log2_sub_log2 hx).2
  · next hlt =>
    rw [Int.sub_add_cancel]
    exact not_le.1 hlt

end

end ComplexFormula
