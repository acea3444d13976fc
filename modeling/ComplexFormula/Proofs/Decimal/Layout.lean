/-
# Printed numbers are read back

A number that is printed with a fixed count of decimal places is a decimal, and the numeral
that is read from it has the printed digits.

* `isUnsigned_fixedDigits` : the digits of a printed number are a decimal without a sign;
* `readUnsigned?_fixedDigits` : the numeral that is read from them;
* `abs_fixedValue_sub_le` : the printed value is off by half a unit of the last place at most.
-/
import Mathlib
import ComplexFormula.Decimal.Layout
import ComplexFormula.Proofs.Decimal
import ComplexFormula.Proofs.Decimal.Rounding

namespace ComplexFormula

open Numeral (IsDigits IsUnsigned IsExponent digitValue digitsValue)

/-! ## Digits -/

/-- The character of a digit is a digit. -/
theorem isDigit_digitChar {n : Nat} (hn : n < 10) : (digitChar n).isDigit = true := by
  interval_cases n <;> decide

/-- The character of a digit has its value. -/
theorem digitValue_digitChar {n : Nat} (hn : n < 10) : digitValue (digitChar n) = n := by
  interval_cases n <;> decide

/-- One more digit. -/
theorem digitsValue_concat (k : Nat) (digits : List Char) (c : Char) :
    digitsValue k (digits ++ [c]) = digitsValue k digits * 10 + digitValue c := by
  rw [digitsValue, List.foldl_concat]
  rfl

/-- The decimal digits of a number are digits. -/
theorem isDigits_decimalDigits (n : Nat) : IsDigits (decimalDigits n) := by
  fun_induction decimalDigits n with
  | case1 n hn =>
    intro c hc
    rw [List.mem_singleton.1 hc]
    exact isDigit_digitChar hn
  | case2 n hn ih =>
    intro c hc
    rcases List.mem_append.1 hc with hc | hc
    · exact ih c hc
    · rw [List.mem_singleton.1 hc]
      exact isDigit_digitChar (Nat.mod_lt n (by decide))

/-- There is at least one of them. -/
theorem decimalDigits_ne_nil (n : Nat) : decimalDigits n ≠ [] := by
  unfold decimalDigits
  split <;> simp

/-- They are read back. -/
theorem digitsValue_decimalDigits (n : Nat) : digitsValue 0 (decimalDigits n) = n := by
  fun_induction decimalDigits n with
  | case1 n hn =>
    have hvalue := digitsValue_concat 0 [] (digitChar n)
    rw [List.nil_append, digitValue_digitChar hn] at hvalue
    rw [hvalue]
    exact Nat.zero_add n
  | case2 n hn ih =>
    rw [digitsValue_concat, ih, digitValue_digitChar (Nat.mod_lt n (by decide))]
    omega

/-- The last digits of a number are digits. -/
theorem isDigits_paddedDigits (width n : Nat) : IsDigits (paddedDigits width n) := by
  induction width generalizing n with
  | zero => exact fun c hc => absurd hc List.not_mem_nil
  | succ width ih =>
    intro c hc
    rcases List.mem_append.1 hc with hc | hc
    · exact ih (n / 10) c hc
    · rw [List.mem_singleton.1 hc]
      exact isDigit_digitChar (Nat.mod_lt n (by decide))

/-- There are as many of them as asked for. -/
theorem length_paddedDigits (width n : Nat) : (paddedDigits width n).length = width := by
  induction width generalizing n with
  | zero => rfl
  | succ width ih => rw [paddedDigits, List.length_append, ih, List.length_singleton]

/-- They are read behind other digits. -/
theorem digitsValue_paddedDigits (k width n : Nat) :
    digitsValue k (paddedDigits width n) = k * 10 ^ width + n % 10 ^ width := by
  induction width generalizing n with
  | zero => simp [paddedDigits, digitsValue, Nat.mod_one]
  | succ width ih =>
    rw [paddedDigits, digitsValue_concat, ih, digitValue_digitChar (Nat.mod_lt n (by decide)),
      Nat.pow_succ', Nat.mod_mul]
    ring

/-! ## Printed numbers -/

namespace Double

/-- The printed units of the last place. -/
def fixedUnits (places : Nat) (magnitude : Rat) : Nat :=
  (nearestEven (magnitude * (10 : Rat) ^ (places : Int))).toNat

/-- A printed number without its sign. -/
def fixedDigits (places : Nat) (magnitude : Rat) : List Char :=
  decimalDigits (fixedUnits places magnitude / Nat.pow 10 places) ++
    '.' :: paddedDigits places (fixedUnits places magnitude)

/-- The value that is printed. -/
def fixedValue (places : Nat) (magnitude : Rat) : Rat :=
  fixedUnits places magnitude * (10 : Rat) ^ (-places : Int)

section

variable (places : Nat) (magnitude : Rat)

/-- A number is printed as a sign and digits. -/
theorem fixed_finite (negative : Bool) :
    fixed places (finite negative magnitude)
      = signChars (negative && magnitude != 0) ++ fixedDigits places magnitude := by
  rw [fixed, fixedDigits, fixedUnits, List.append_assoc]

/-- **A printed number is a decimal** without its sign. -/
theorem isUnsigned_fixedDigits : IsUnsigned (fixedDigits places magnitude) := by
  have hdecimal := IsUnsigned.point
    (List.append_ne_nil_of_left_ne_nil (decimalDigits_ne_nil _) _)
    (isDigits_decimalDigits (fixedUnits places magnitude / Nat.pow 10 places))
    (isDigits_paddedDigits places (fixedUnits places magnitude)) IsExponent.none
  rwa [List.append_nil] at hdecimal

/-- **The numeral of a printed number has the printed digits.** -/
theorem readUnsigned?_fixedDigits :
    Numeral.readUnsigned? (fixedDigits places magnitude)
      = some ⟨false, fixedUnits places magnitude, -places⟩ := by
  let units := fixedUnits places magnitude
  have hpoint : ∀ c ∈ ('.' :: paddedDigits places units).head?, c.isDigit = false := by
    intro c hc
    obtain rfl := Option.some.inj hc
    decide
  have hwhole : Numeral.readDigits (fixedDigits places magnitude)
      = (decimalDigits (units / Nat.pow 10 places), '.' :: paddedDigits places units) :=
    Numeral.readDigits_append_of_digits (isDigits_decimalDigits _) hpoint
  have hfraction : Numeral.readFraction ('.' :: paddedDigits places units)
      = (paddedDigits places units, []) := by
    have hdigits := @Numeral.readDigits_append_of_digits (paddedDigits places units) []
      (isDigits_paddedDigits _ _) (by simp)
    rwa [List.append_nil] at hdigits
  have hcoefficient : digitsValue (digitsValue 0 (decimalDigits (units / Nat.pow 10 places)))
      (paddedDigits places units) = units := by
    rw [digitsValue_decimalDigits, digitsValue_paddedDigits]
    exact Nat.div_add_mod' _ _
  simp only [Numeral.readUnsigned?, hwhole, hfraction, hcoefficient, length_paddedDigits,
    List.isEmpty_eq_false_iff.2 (decimalDigits_ne_nil _), Numeral.readExponent?]
  simp [units]

/-! ## The printed value -/

variable {magnitude} (hm : 0 ≤ magnitude)

include hm

/-- The printed units are the rounded ones. -/
theorem cast_fixedUnits :
    (fixedUnits places magnitude : Rat)
      = (nearestEven (magnitude * (10 : Rat) ^ (places : Int)) : Int) := by
  have hnonneg : 0 ≤ nearestEven (magnitude * (10 : Rat) ^ (places : Int)) := by
    refine le_nearestEven ?_
    rw [Int.cast_zero]
    positivity
  rw [fixedUnits, ← Int.cast_natCast, Int.toNat_of_nonneg hnonneg]

/-- **The printed value is off by half a unit of the last place at most.** -/
theorem abs_fixedValue_sub_le :
    |fixedValue places magnitude - magnitude| ≤ 1 / 2 * (10 : Rat) ^ (-places : Int) := by
  have hpos : 0 < (10 : Rat) ^ (-places : Int) := by positivity
  have hscale : fixedValue places magnitude - magnitude
      = (nearestEven (magnitude * (10 : Rat) ^ (places : Int))
          - magnitude * (10 : Rat) ^ (places : Int)) * (10 : Rat) ^ (-places : Int) := by
    rw [sub_mul, mul_assoc, ← zpow_add₀ (by norm_num), add_neg_cancel, zpow_zero, mul_one,
      fixedValue, cast_fixedUnits places hm]
  rw [hscale, abs_mul, abs_of_pos hpos]
  exact mul_le_mul_of_nonneg_right (abs_nearestEven_sub_le _) hpos.le

/-- A number that is no more than a whole one is printed as no more than it. -/
theorem fixedValue_le {k : Int} (hk : magnitude ≤ k) : fixedValue places magnitude ≤ k := by
  have hunits : nearestEven (magnitude * (10 : Rat) ^ (places : Int)) ≤ k * 10 ^ places := by
    refine nearestEven_le ?_
    push_cast
    exact mul_le_mul_of_nonneg_right hk (by positivity)
  have hcast : (nearestEven (magnitude * (10 : Rat) ^ (places : Int)) : Rat)
      ≤ k * 10 ^ places := by
    exact_mod_cast hunits
  rw [fixedValue, cast_fixedUnits places hm, zpow_neg, zpow_natCast, ← div_eq_mul_inv,
    div_le_iff₀ (by positivity)]
  exact hcast

omit hm in
/-- A printed value is not negative. -/
theorem fixedValue_nonneg : 0 ≤ fixedValue places magnitude := by
  unfold fixedValue
  positivity

end

end Double

end ComplexFormula
