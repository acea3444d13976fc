/-
# The nearest float

What the bits of a float denote, and that writing a number to bits rounds it to the nearest
number that a float can denote.

* `Double.ofFloat_ofBits` : the bits of a float are kept, up to those of no number;
* `Double.IsMagnitude` : the magnitudes of finite floats;
* `Double.abs_nearestMagnitude_sub_le` : none of them is nearer to a number than the rounded
  one;
* `Double.ofFloat_toFloat` : a number within the range of floats is written as the rounded one.
-/
import Mathlib
import ComplexFormula.Proofs.Decimal.Rounding
import ComplexFormula.Proofs.Float

namespace ComplexFormula

open Float.Model
open Float.Model.UnpackedFloat (Sign)

namespace Double

/-! ## The bits of a float -/

/-- Whether a sign is a minus. -/
def isMinus : Sign → Bool
  | .positive => false
  | .negative => true

/-- What an unpacked number denotes. -/
def ofNumber : UnpackedFloat → Double
  | .notANumber => nan
  | .infinity s => infinite (isMinus s)
  | .zero s => finite (isMinus s) 0
  | .finite s m e _ => finite (isMinus s) (m * (2 : Rat) ^ e)

/-- The sign of a float is a minus where its highest bit is set. -/
theorem decide_signBit_le (b : BitVec 64) :
    decide (signBit ≤ b.toNat)
      = isMinus (Sign.ofBitVec (@UnpackedFloat.unpackSign Format.binary64 b)) := by
  have hsign := toNat_unpackSign b
  have hlt := b.isLt
  have hvalue : signBit = 2 ^ 63 := rfl
  rw [hvalue]
  unfold Sign.ofBitVec
  split
  · next hzero =>
    have hbit : b.toNat / 2 ^ 63 % 2 = 0 := by rw [← hsign, hzero]; rfl
    exact decide_eq_false (by omega)
  · next hone =>
    have hbit : b.toNat / 2 ^ 63 % 2 ≠ 0 := by
      rw [← hsign]
      exact fun h => hone (BitVec.eq_of_toNat_eq h)
    exact decide_eq_true (by omega)

/-- **The bits of a float denote the number that is unpacked from them.** -/
theorem ofBits_toNat (b : BitVec 64) :
    ofBits b.toNat = ofNumber (UnpackedFloat.unpack Format.binary64 b) := by
  have hmantissa := toNat_unpackMantissa b
  have hexponent := toNat_unpackExponent b
  have hbias : Format.binary64.exponentBias = 1023 := rfl
  have hfraction : b.toNat % exponentBit
      = (@UnpackedFloat.unpackMantissa Format.binary64 b).toNat := hmantissa.symm
  have hplace : b.toNat % signBit / exponentBit
      = (@UnpackedFloat.unpackExponent Format.binary64 b).toNat := by
    rw [hexponent]
    show b.toNat % 2 ^ 63 / 2 ^ 52 = _
    omega
  have hspecial : (@UnpackedFloat.unpackExponent Format.binary64 b).toNat = specialExponent ↔
      @UnpackedFloat.unpackExponent Format.binary64 b = -1#11 :=
    BitVec.toNat_inj (y := -1#11)
  have hleast : (@UnpackedFloat.unpackExponent Format.binary64 b).toNat = 0 ↔
      @UnpackedFloat.unpackExponent Format.binary64 b = 0#11 :=
    BitVec.toNat_inj (y := 0#11)
  have hempty : (@UnpackedFloat.unpackMantissa Format.binary64 b).toNat = 0 ↔
      @UnpackedFloat.unpackMantissa Format.binary64 b = 0#52 :=
    BitVec.toNat_inj (y := 0#52)
  unfold ofBits UnpackedFloat.unpack
  simp only [decide_signBit_le, hfraction, hplace, hbias, hspecial, hleast, hempty]
  split
  · split <;> rfl
  · split
    · next hzero =>
      split
      · next hnone =>
        rw [hnone]
        exact congrArg (finite _) (by simp)
      · rw [hzero]
        rfl
    · have hleading := toNat_append_one (@UnpackedFloat.unpackMantissa Format.binary64 b)
      show finite _ _ = finite _ _
      rw [hleading]
      rfl

/-- A float denotes its number. -/
theorem ofFloat_eq (x : Float) : ofFloat x = ofNumber (numberOf x) := ofBits_toNat _

/-- A float that is made of bits denotes what they denote. -/
theorem ofFloat_ofBits {n : Nat} (hn : n < 2 ^ 64) :
    ofFloat (Float.ofBits (UInt64.ofNat n)) = ofBits n := by
  have hnumber : numberOf (Float.ofBits (UInt64.ofNat n))
      = UnpackedFloat.unpack Format.binary64 (BitVec.ofNat 64 n) :=
    numberOf_pack (canonical_unpack _)
  rw [ofFloat_eq, hnumber, ← ofBits_toNat, BitVec.toNat_ofNat, Nat.mod_eq_of_lt hn]

/-- The finite floats are those that denote a rational number. -/
theorem isFinite_iff {x : Float} :
    x.isFinite = true ↔ ∃ negative magnitude, ofFloat x = finite negative magnitude := by
  show (numberOf x).isFinite = true ↔ _
  rw [ofFloat_eq]
  cases numberOf x <;> simp [UnpackedFloat.isFinite, ofNumber]

/-! ## The numbers that floats denote -/

/-- The magnitudes of finite floats: a mantissa of 53 bits at a place within the range. -/
def IsMagnitude (y : Rat) : Prop :=
  ∃ (m : Nat) (e : Int), m < 2 ^ 53 ∧ -1074 ≤ e ∧ e ≤ 971 ∧ y = m * (2 : Rat) ^ e

/-- The largest of them. -/
def largest : Rat := (2 ^ 53 - 1) * (2 : Rat) ^ (971 : Int)

/-- A finite float denotes one of them. -/
theorem isMagnitude_of_ofFloat {x : Float} {negative : Bool} {y : Rat}
    (h : ofFloat x = finite negative y) : IsMagnitude y := by
  have hcanonical := canonical_numberOf x
  rw [ofFloat_eq] at h
  cases hnumber : numberOf x with
  | notANumber => simp [hnumber, ofNumber] at h
  | infinity s => simp [hnumber, ofNumber] at h
  | zero s =>
    simp only [hnumber, ofNumber, finite.injEq] at h
    exact ⟨0, 0, by decide, by decide, by decide, by simp [← h.2]⟩
  | finite s m e hm =>
    simp only [hnumber, ofNumber, finite.injEq] at h
    rw [hnumber] at hcanonical
    refine ⟨m, e, ?_, ?_, ?_, h.2.symm⟩
    · rcases hcanonical with ⟨hlow, -⟩ | ⟨-, hhigh, -⟩ <;> omega
    · rcases hcanonical with ⟨-, he⟩ | ⟨-, -, he, -⟩ <;> omega
    · rcases hcanonical with ⟨-, he⟩ | ⟨-, -, -, he⟩ <;> omega

namespace IsMagnitude

variable {y : Rat} (h : IsMagnitude y)

include h

/-- A magnitude is not negative. -/
theorem nonneg : 0 ≤ y := by
  obtain ⟨m, e, -, -, -, rfl⟩ := h
  positivity

/-- No magnitude is above the largest one. -/
theorem le_largest : y ≤ largest := by
  obtain ⟨m, e, hm, -, he, rfl⟩ := h
  have hmantissa : (m : Rat) ≤ 2 ^ 53 - 1 := by
    rw [le_sub_iff_add_le]
    exact_mod_cast hm
  exact mul_le_mul hmantissa (zpow_le_zpow_right₀ (by norm_num) he) (by positivity) (by norm_num)

/-- A magnitude below a place of the mantissa is below the next power of two. -/
theorem le_or_exists (q : Int) :
    (q ≠ -1074 ∧ y ≤ 2 ^ 52 * (2 : Rat) ^ q) ∨ ∃ k : Int, y = k * (2 : Rat) ^ q := by
  obtain ⟨m, e, hm, hemin, -, rfl⟩ := h
  by_cases he : q ≤ e
  · refine Or.inr ⟨m * 2 ^ (e - q).toNat, ?_⟩
    have hplace : e = (e - q).toNat + q := by omega
    nth_rewrite 1 [hplace]
    rw [zpow_add₀ (by norm_num), zpow_natCast]
    push_cast
    ring
  · refine Or.inl ⟨?_, ?_⟩
    · rintro rfl
      exact he hemin
    have hmantissa : (m : Rat) ≤ 2 ^ 53 := by exact_mod_cast hm.le
    calc (m : Rat) * 2 ^ e ≤ 2 ^ 53 * 2 ^ (q - 1) :=
          mul_le_mul hmantissa (zpow_le_zpow_right₀ (by norm_num) (by omega)) (by positivity)
            (by norm_num)
      _ = 2 ^ 52 * 2 ^ q := by
          rw [zpow_sub_one₀ (by norm_num)]
          ring

end IsMagnitude

/-! ## Rounding to a magnitude -/

/-- The place of the last digit of the mantissa of a number. -/
def quantum (x : Rat) : Int := max (-1074) (binaryOrder x - 52)

/-- The mantissa of a number, rounded. -/
def roundedMantissa (x : Rat) : Int := nearestEven (x / (2 : Rat) ^ quantum x)

/-- The magnitude to which a number is rounded. -/
def nearestMagnitude (x : Rat) : Rat := roundedMantissa x * (2 : Rat) ^ quantum x

/-- Above the least place a mantissa has 53 bits. -/
theorem two_pow_mul_le {x : Rat} (hx : 0 < x) (hq : quantum x ≠ -1074) :
    2 ^ 52 * (2 : Rat) ^ quantum x ≤ x := by
  have hplace : 2 ^ 52 * (2 : Rat) ^ quantum x = 2 ^ binaryOrder x := by
    have horder : binaryOrder x = 52 + quantum x := by
      unfold quantum at hq ⊢
      omega
    rw [horder, zpow_add₀ (by norm_num)]
    rfl
  rw [hplace]
  exact two_pow_binaryOrder_le hx

/-- No multiple of the last digit is nearer to a number than the rounded one. -/
theorem abs_nearestMagnitude_sub_le_of_mul (x : Rat) (k : Int) :
    |nearestMagnitude x - x| ≤ |k * (2 : Rat) ^ quantum x - x| := by
  have hpos : 0 < (2 : Rat) ^ quantum x := by positivity
  have hscale : ∀ n : Int, |n * (2 : Rat) ^ quantum x - x|
      = |n - x / (2 : Rat) ^ quantum x| * 2 ^ quantum x := by
    intro n
    nth_rewrite 3 [← abs_of_pos hpos]
    rw [← abs_mul, sub_mul, div_mul_cancel₀ _ hpos.ne']
  rw [nearestMagnitude, hscale, hscale]
  exact mul_le_mul_of_nonneg_right (abs_nearestEven_sub_le_abs_sub _ k) hpos.le

/-- **No magnitude of a float is nearer to a number than the rounded one.** -/
theorem abs_nearestMagnitude_sub_le {x y : Rat} (hx : 0 < x) (hy : IsMagnitude y) :
    |nearestMagnitude x - x| ≤ |y - x| := by
  rcases hy.le_or_exists (quantum x) with ⟨hne, hle⟩ | ⟨k, rfl⟩
  · -- the power of two between the two is a multiple of the last digit
    have hpower := two_pow_mul_le hx hne
    have hnearest := abs_nearestMagnitude_sub_le_of_mul x (2 ^ 52)
    rw [Int.cast_pow, Int.cast_ofNat] at hnearest
    rw [abs_of_nonpos (by linarith : y - x ≤ 0)]
    rw [abs_of_nonpos (by linarith : 2 ^ 52 * (2 : Rat) ^ quantum x - x ≤ 0)] at hnearest
    linarith
  · exact abs_nearestMagnitude_sub_le_of_mul x k

/-! ## Writing a number to bits -/

section

variable {x : Rat} (hx : 0 < x)

include hx

/-- A mantissa is not negative, and has 53 bits above the least place. -/
theorem le_roundedMantissa :
    0 ≤ roundedMantissa x ∧ (quantum x ≠ -1074 → 2 ^ 52 ≤ roundedMantissa x) := by
  have hpos : 0 < (2 : Rat) ^ quantum x := by positivity
  constructor
  · refine le_nearestEven ?_
    rw [Int.cast_zero]
    positivity
  · intro hq
    refine le_nearestEven ?_
    rw [le_div_iff₀ hpos]
    exact_mod_cast two_pow_mul_le hx hq

/-- A mantissa has no more than 53 bits, up to the next power of two. -/
theorem roundedMantissa_le : roundedMantissa x ≤ 2 ^ 53 := by
  have hpos : 0 < (2 : Rat) ^ quantum x := by positivity
  refine nearestEven_le ?_
  rw [div_le_iff₀ hpos]
  calc x ≤ 2 ^ (binaryOrder x + 1) := (lt_two_pow_binaryOrder hx).le
    _ ≤ 2 ^ (53 + quantum x) :=
        zpow_le_zpow_right₀ (by norm_num) (by unfold quantum; omega)
    _ = ((2 ^ 53 : Int) : Rat) * 2 ^ quantum x := by
        rw [zpow_add₀ (by norm_num)]
        norm_num

/-- Within the range of floats the places are, too. -/
theorem quantum_le (hmax : x ≤ largest) :
    quantum x ≤ 971 ∧ (quantum x = 971 → roundedMantissa x < 2 ^ 53) := by
  have horder : binaryOrder x < 1024 := by
    by_contra hlarge
    have hpower : (2 : Rat) ^ (53 + 971 : Int) ≤ x :=
      (zpow_le_zpow_right₀ (by norm_num) (not_lt.1 hlarge)).trans (two_pow_binaryOrder_le hx)
    have hpos : 0 < (2 : Rat) ^ (971 : Int) := by positivity
    have habove := hpower.trans hmax
    rw [zpow_add₀ (by norm_num), largest] at habove
    have hmantissa := le_of_mul_le_mul_right habove hpos
    norm_num at hmantissa
  refine ⟨by unfold quantum; omega, fun hq => ?_⟩
  have hle : roundedMantissa x ≤ 2 ^ 53 - 1 := by
    refine nearestEven_le ?_
    have hcast : ((2 ^ 53 - 1 : Int) : Rat) = 2 ^ 53 - 1 := by norm_num
    rw [hq, div_le_iff₀ (by positivity), hcast]
    exact hmax
  omega

end

/-- The bits of a mantissa at a place denote the number that has them. -/
theorem ofBits_signBits_add (negative : Bool) {e m : Nat} (he : e = 0 ∨ 2 ^ 52 ≤ m)
    (hm : m ≤ 2 ^ 53) (hlt : e * exponentBit + m < infinityBits) :
    ofBits (signBits negative + (e * exponentBit + m))
      = finite negative (m * (2 : Rat) ^ ((e : Int) - 1074)) := by
  have hbit : exponentBit = 2 ^ 52 := rfl
  have hvalue : signBit = 2 ^ 63 := rfl
  have hinfinity : infinityBits = 2047 * 2 ^ 52 := rfl
  rw [hbit, hinfinity] at hlt
  have hnegative : decide (signBit ≤ signBits negative + (e * exponentBit + m)) = negative := by
    cases negative with
    | false => exact decide_eq_false (by rw [signBits, hvalue, hbit]; simp; omega)
    | true => exact decide_eq_true (by simp [signBits])
  have hfields : (signBits negative + (e * exponentBit + m)) % signBit / exponentBit
        = e + m / 2 ^ 52 ∧
      (signBits negative + (e * exponentBit + m)) % exponentBit = m % 2 ^ 52 := by
    have hsign : signBits negative = 0 ∨ signBits negative = 2 ^ 63 := by
      cases negative with
      | false => exact Or.inl rfl
      | true => exact Or.inr rfl
    rw [hbit, hvalue]
    omega
  unfold ofBits
  simp only [hnegative, hfields.1, hfields.2]
  have hfinite : e + m / 2 ^ 52 ≠ specialExponent := by
    show e + m / 2 ^ 52 ≠ 2047
    omega
  rw [if_neg hfinite]
  split
  · next hleast =>
    -- there is no leading bit, and the place is the least one
    obtain ⟨rfl, hsmall⟩ : e = 0 ∧ m % 2 ^ 52 = m := by omega
    rw [hsmall]
    rfl
  · next hplace =>
    rcases Nat.lt_or_ge m (2 ^ 53) with hless | hmore
    · obtain ⟨hleading, hfraction⟩ : m / 2 ^ 52 = 1 ∧ exponentBit + m % 2 ^ 52 = m := by omega
      have hexponent : ((e + 1 : Nat) : Int) - 1075 = e - 1074 := by omega
      rw [hleading, hfraction, hexponent]
    · -- rounding has carried into the next place
      obtain ⟨rfl⟩ : m = 2 ^ 53 := by omega
      have hexponent : ((e + 2 : Nat) : Int) - 1075 = e - 1074 + 1 := by omega
      show finite negative (((2 ^ 52 : Nat) : Rat) * 2 ^ (((e + 2 : Nat) : Int) - 1075)) = _
      rw [hexponent, zpow_add_one₀ (by norm_num)]
      push_cast
      ring_nf

/-- **A number within the range of floats is written as the rounded one.** -/
theorem ofFloat_toFloat {x : Rat} (hx : 0 < x) (hmax : x ≤ largest) (negative : Bool) :
    ofFloat (finite negative x).toFloat = finite negative (nearestMagnitude x) := by
  obtain ⟨hnonneg, hlow⟩ := le_roundedMantissa hx
  have hhigh := roundedMantissa_le hx
  obtain ⟨hplace, htop⟩ := quantum_le hx hmax
  have hleast : -1074 ≤ quantum x := le_max_left _ _
  obtain ⟨m, hm⟩ := Int.eq_ofNat_of_zero_le hnonneg
  obtain ⟨e, he⟩ := Int.eq_ofNat_of_zero_le (by omega : 0 ≤ quantum x + 1074)
  have hbit : exponentBit = 2 ^ 52 := rfl
  have hinfinity : infinityBits = 2047 * 2 ^ 52 := rfl
  have hbelow : e * exponentBit + m < infinityBits := by
    rw [hbit, hinfinity]
    omega
  have hbits : magnitudeBits x = e * exponentBit + m := by
    have hmagnitude : magnitudeBits x = min infinityBits
        ((quantum x + 1074).toNat * exponentBit + (roundedMantissa x).toNat) := by
      rw [magnitudeBits, if_neg (not_le.2 hx)]
      rfl
    rw [hmagnitude, he, hm]
    exact Nat.min_eq_right hbelow.le
  have hsmall : signBits negative + (e * exponentBit + m) < 2 ^ 64 := by
    have hsign : signBits negative ≤ 2 ^ 63 := by cases negative <;> decide
    have hbelow' := hbits ▸ magnitudeBits_lt x
    omega
  rw [toFloat, toBits, hbits, ofFloat_ofBits hsmall, ofBits_signBits_add negative (by omega)
    (by omega) hbelow, nearestMagnitude, hm]
  rw [show ((e : Int) - 1074) = quantum x by omega]
  rfl

/-- **A number within the range of floats is written as the nearest float.** -/
theorem exists_nearest_of_toFloat {x : Rat} (hx : 0 ≤ x) (hmax : x ≤ largest) (negative : Bool) :
    ∃ r, ofFloat (finite negative x).toFloat = finite negative r ∧
      ∀ y, IsMagnitude y → |r - x| ≤ |y - x| := by
  rcases hx.eq_or_lt with rfl | hpos
  · have hzero : ofFloat (finite negative 0).toFloat = finite negative 0 := by
      cases negative <;> decide +kernel
    refine ⟨0, hzero, fun y _ => ?_⟩
    rw [sub_zero, abs_zero]
    exact abs_nonneg _
  · exact ⟨nearestMagnitude x, ofFloat_toFloat hpos hmax negative,
      fun y hy => abs_nearestMagnitude_sub_le hpos hy⟩

end Double

end ComplexFormula
