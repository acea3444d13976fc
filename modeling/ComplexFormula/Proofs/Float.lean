/-
# Floats

What the operations on floats do with zero, with one and with minus one, whatever the other
operand is. A float is unpacked into the number that it stands for, and a number in canonical
form is packed and unpacked without a change.

* `numberOf` : the number that a float stands for;
* `worth` : the number without the sign of a zero, on which the comparison of floats rests;
* `numberOf_mul_one`, `numberOf_mul_neg_one`, `worth_mul_zero` : products;
* `worth_add_zero`, `worth_zero_add`, `worth_sub_zero`, `worth_zero_sub` : sums and
  differences;
* `numberOf_toFloat_negative` : a numeral with a minus is the opposite of the one without.
-/
import Mathlib
import ComplexFormula.Decimal.Numeral

namespace ComplexFormula

open Float.Model
open Float.Model.UnpackedFloat (Sign ExtendedMantissa packComponents)

/-! ## Canonical numbers -/

/-- The form in which floats have their numbers: a mantissa of 53 bits, or a smaller one with
the least exponent. -/
def Canonical : UnpackedFloat → Prop
  | .finite _ m e _ =>
    (m < 2 ^ 52 ∧ e = -1074) ∨ (2 ^ 52 ≤ m ∧ m < 2 ^ 53 ∧ -1074 ≤ e ∧ e ≤ 971)
  | _ => True

/-- The leading bit of a mantissa, put back. -/
theorem toNat_append_one (m : BitVec 52) : (1#1 ++ m).toNat = 2 ^ 52 + m.toNat := by
  rw [BitVec.toNat_append, ← Nat.shiftLeft_add_eq_or_of_lt m.isLt]
  rfl

/-- The mantissa of a float among its bits. -/
theorem toNat_unpackMantissa (b : BitVec 64) :
    (@UnpackedFloat.unpackMantissa Format.binary64 b).toNat = b.toNat % 2 ^ 52 := by
  simp [UnpackedFloat.unpackMantissa, BitVec.extractLsb, BitVec.extractLsb'_toNat]

/-- The exponent of a float among its bits. -/
theorem toNat_unpackExponent (b : BitVec 64) :
    (@UnpackedFloat.unpackExponent Format.binary64 b).toNat = b.toNat / 2 ^ 52 % 2 ^ 11 := by
  simp [UnpackedFloat.unpackExponent, BitVec.extractLsb, BitVec.extractLsb'_toNat,
    Nat.shiftRight_eq_div_pow]

/-- The sign of a float among its bits. -/
theorem toNat_unpackSign (b : BitVec 64) :
    (@UnpackedFloat.unpackSign Format.binary64 b).toNat = b.toNat / 2 ^ 63 % 2 := by
  simp [UnpackedFloat.unpackSign, BitVec.extractLsb, BitVec.extractLsb'_toNat,
    Nat.shiftRight_eq_div_pow]

/-- What is unpacked is canonical. -/
theorem canonical_unpack (b : BitVec 64) :
    Canonical (UnpackedFloat.unpack Format.binary64 b) := by
  have hm : (@UnpackedFloat.unpackMantissa Format.binary64 b).toNat < 2 ^ 52 :=
    BitVec.isLt _
  have he : (@UnpackedFloat.unpackExponent Format.binary64 b).toNat < 2 ^ 11 :=
    BitVec.isLt _
  have hbias : Format.binary64.exponentBias = 1023 := rfl
  unfold UnpackedFloat.unpack
  simp only [hbias]
  split
  · split <;> trivial
  · next hspecial =>
    have hspecial' : (@UnpackedFloat.unpackExponent Format.binary64 b).toNat ≠ 2047 :=
      fun h => hspecial (BitVec.eq_of_toNat_eq h)
    split
    · next hzero =>
      split
      · trivial
      · refine Or.inl ⟨hm, ?_⟩
        rw [hzero]
        rfl
    · next hzero =>
      have hzero' : (@UnpackedFloat.unpackExponent Format.binary64 b).toNat ≠ 0 :=
        fun h => hzero (BitVec.eq_of_toNat_eq h)
      have hmantissa := toNat_append_one (@UnpackedFloat.unpackMantissa Format.binary64 b)
      exact Or.inr ⟨by omega, by omega, by omega, by omega⟩

/-- The opposite of a canonical number is canonical. -/
theorem canonical_neg {u : UnpackedFloat} (h : Canonical u) : Canonical u.neg := by
  cases u <;> exact h

/-! ## Packing -/

/-- The bits of a float by its fields. -/
theorem toNat_packComponents (s : Sign) (e : BitVec 11) (m : BitVec 52) :
    (packComponents Format.binary64 s e m).toNat
      = s.toBitVec.toNat * 2 ^ 63 + e.toNat * 2 ^ 52 + m.toNat := by
  have hhigh : (s.toBitVec ++ e).toNat = s.toBitVec.toNat * 2 ^ 11 + e.toNat := by
    rw [BitVec.toNat_append, ← Nat.shiftLeft_add_eq_or_of_lt e.isLt, Nat.shiftLeft_eq]
  show (s.toBitVec ++ e ++ m).toNat = _
  rw [BitVec.toNat_append, ← Nat.shiftLeft_add_eq_or_of_lt m.isLt, Nat.shiftLeft_eq, hhigh]
  omega

/-- The number of a float by its fields. -/
theorem unpack_packComponents (s : Sign) (e : BitVec 11) (m : BitVec 52) :
    UnpackedFloat.unpack Format.binary64 (packComponents Format.binary64 s e m) =
      if e = -1#11 then
        if m = 0#52 then .infinity s else .notANumber
      else if e = 0#11 then
        if h : m = 0#52 then .zero s
        else .finite s m.toNat (-1074) (by simpa [BitVec.toNat_pos, BitVec.pos_iff_ne_zero])
      else .finite s (1#1 ++ m).toNat (e.toNat - 1075) (by rw [toNat_append_one]; omega) := by
  unfold UnpackedFloat.unpack
  simp only [UnpackedFloat.unpackMantissa_packComponents,
    UnpackedFloat.unpackExponent_packComponents, UnpackedFloat.unpackSign_packComponents,
    Sign.ofBitVec_toBitVec]
  split
  · rfl
  · split
    · next hzero =>
      subst hzero
      rfl
    · rfl

/-- A canonical number is packed and unpacked without a change. -/
theorem unpack_pack {u : UnpackedFloat} (h : Canonical u) :
    UnpackedFloat.unpack Format.binary64 (UnpackedFloat.pack Format.binary64 u) = u := by
  cases u with
  | infinity s => cases s <;> rfl
  | notANumber => rfl
  | zero s => cases s <;> rfl
  | finite s m e hm =>
    have hne : m ≠ 0 := Nat.pos_iff_ne_zero.1 hm
    have hbias : Format.binary64.exponentBias = 1023 := rfl
    have hbits : Format.binary64.mantissaBits = 53 := rfl
    simp only [UnpackedFloat.pack, hbias, hbits]
    rcases h with ⟨hlow, rfl⟩ | ⟨hlow, hhigh, hemin, hemax⟩
    · have hlog : m.log2 < 52 := (Nat.log2_lt hne).2 hlow
      have hmantissa : BitVec.ofNat 52 m ≠ 0#52 := by
        intro hzero
        have hzero' := congrArg BitVec.toNat hzero
        rw [BitVec.toNat_ofNat, Nat.mod_eq_of_lt hlow] at hzero'
        exact hne hzero'
      rw [if_neg (by decide), if_neg (by omega), unpack_packComponents, if_neg (by decide),
        if_pos rfl, dif_neg hmantissa]
      congr
      rw [BitVec.toNat_ofNat, Nat.mod_eq_of_lt hlow]
    · have hlog : m.log2 = 52 := (Nat.log2_eq_iff hne).2 ⟨hlow, hhigh⟩
      obtain ⟨k, rfl⟩ : ∃ k : Nat, e = k - 1075 := ⟨(e + 1075).toNat, by omega⟩
      have hk : ((k - 1075 : Int) + ((1023 : Nat) : Int) + ((52 : Nat) : Int)).toNat = k := by
        omega
      have hvec : ∀ {e : BitVec 11}, k ≠ e.toNat → BitVec.ofNat 11 k ≠ e := by
        rintro e hne rfl
        rw [BitVec.toNat_ofNat, Nat.mod_eq_of_lt (by omega)] at hne
        exact hne rfl
      have hmantissa : (1#1 ++ BitVec.ofNat 52 m).toNat = m := by
        rw [toNat_append_one, BitVec.toNat_ofNat]
        omega
      rw [hk, if_neg (by omega), if_pos (by omega), unpack_packComponents,
        if_neg (hvec (by simp; omega)), if_neg (hvec (by simp; omega))]
      simp only [hmantissa, BitVec.toNat_ofNat]
      congr
      omega

/-! ## The number of a float -/

/-- The number that a float stands for. -/
def numberOf (x : Float) : UnpackedFloat := x.toModel.unpack

/-- The number of a float is canonical. -/
theorem canonical_numberOf (x : Float) : Canonical (numberOf x) := canonical_unpack _

/-- The number of a float that was packed. -/
theorem numberOf_pack {u : UnpackedFloat} (h : Canonical u) :
    numberOf (.ofModel (Float.Model.pack u)) = u := unpack_pack h

/-- The number of an opposite. -/
theorem numberOf_neg (x : Float) : numberOf (-x) = (numberOf x).neg :=
  numberOf_pack (canonical_neg (canonical_numberOf x))

/-- The number of a product that needs no rounding. -/
theorem numberOf_mul {x y : Float}
    (h : Canonical (UnpackedFloat.mul Format.binary64 (numberOf x) (numberOf y))) :
    numberOf (x * y) = UnpackedFloat.mul Format.binary64 (numberOf x) (numberOf y) :=
  numberOf_pack h

/-- The number of a sum that needs no rounding. -/
theorem numberOf_add {x y : Float}
    (h : Canonical (UnpackedFloat.add Format.binary64 (numberOf x) (numberOf y))) :
    numberOf (x + y) = UnpackedFloat.add Format.binary64 (numberOf x) (numberOf y) :=
  numberOf_pack h

/-- The number of one. -/
theorem numberOf_one : numberOf 1 = .finite .positive (2 ^ 52) (-52) (by decide) := rfl

/-- The number of minus one. -/
theorem numberOf_neg_one : numberOf (-1) = .finite .negative (2 ^ 52) (-52) (by decide) := rfl

/-! ## Rounding what needs no rounding -/

/-- A canonical number has the exponent that rounding aims at. -/
theorem targetExponent_of_canonical {s : Sign} {m : Nat} {e : Int} {hm : 0 < m}
    (h : Canonical (.finite s m e hm)) :
    Format.binary64.targetExponent (totalExponent m e) = e := by
  have hne : m ≠ 0 := Nat.pos_iff_ne_zero.1 hm
  show max ((m.log2 : Int) + 1 + e - 53) (-1074) = e
  rcases h with ⟨hlow, rfl⟩ | ⟨hlow, hhigh, hemin, -⟩
  · have hlog : m.log2 < 52 := (Nat.log2_lt hne).2 hlow
    omega
  · have hlog : m.log2 = 52 := (Nat.log2_eq_iff hne).2 ⟨hlow, hhigh⟩
    omega

/-- The leading place does not depend on how the number is split up. -/
theorem totalExponent_mul_two_pow {m : Nat} (hm : 0 < m) (e : Int) (k : Nat) :
    totalExponent (m * 2 ^ k) (e - k) = totalExponent m e := by
  have hne : m * 2 ^ k ≠ 0 := Nat.mul_ne_zero (Nat.pos_iff_ne_zero.1 hm)
    (Nat.ne_of_gt (Nat.two_pow_pos k))
  have hlog : (m * 2 ^ k).log2 = m.log2 + k := by
    have h := (Nat.log2_eq_iff (Nat.pos_iff_ne_zero.1 hm)).1 rfl
    rw [Nat.log2_eq_iff hne, Nat.pow_add, Nat.add_right_comm, Nat.pow_add]
    exact ⟨Nat.mul_le_mul_right _ h.1, Nat.mul_lt_mul_of_pos_right h.2 (Nat.two_pow_pos k)⟩
  unfold totalExponent
  rw [hlog]
  omega

/-- Shifting out zeros leaves no remainder. -/
theorem shiftRight_mul_two_pow (m k : Nat) :
    (⟨m * 2 ^ k, false, false⟩ : ExtendedMantissa) >>> k = ⟨m, false, false⟩ := by
  induction k generalizing m with
  | zero => simp [HShiftRight.hShiftRight, Nat.repeat]
  | succ k ih =>
    show ((⟨m * 2 ^ (k + 1), false, false⟩ : ExtendedMantissa) >>> k).shiftRightOne = _
    rw [Nat.pow_succ', ← Nat.mul_assoc, ih]
    simp [ExtendedMantissa.shiftRightOne]

/-- Rounding a canonical number that was split up otherwise puts it together again. -/
theorem roundWithAccuracy_mul_two_pow {s t : Sign} {m : Nat} {e : Int} {hm : 0 < m}
    (h : Canonical (.finite s m e hm)) (k : Nat) :
    UnpackedFloat.roundWithAccuracy Format.binary64 t (m * 2 ^ k) (e - k) .exact
      = .finite t m e hm := by
  have hshift : ∀ k : Nat,
      UnpackedFloat.shiftToTargetExponent Format.binary64 (m * 2 ^ k) (e - k) .exact
        = (⟨m, false, false⟩, e) := by
    intro k
    simp only [UnpackedFloat.shiftToTargetExponent, UnpackedFloat.shiftToExponent,
      totalExponent_mul_two_pow hm e k, targetExponent_of_canonical h]
    rw [show (e - (e - k)).toNat = k by omega, show e - k + (k : Int) = e by omega]
    exact congrArg (·, e) (shiftRight_mul_two_pow m k)
  -- the second shift has nothing left to do
  have hagain := hshift 0
  rw [Nat.pow_zero, Nat.mul_one, Int.natCast_zero, Int.sub_zero] at hagain
  have hrounded : (⟨m, false, false⟩ : ExtendedMantissa).roundedMantissa = m := rfl
  unfold UnpackedFloat.roundWithAccuracy
  simp only [hshift k, hrounded, hagain]
  rw [dif_neg (Nat.pos_iff_ne_zero.1 hm)]

/-! ## Products -/

/-- A canonical number times one, or minus one. -/
theorem mul_one_of_canonical {u : UnpackedFloat} (h : Canonical u) :
    UnpackedFloat.mul Format.binary64 u (.finite .positive (2 ^ 52) (-52) (by decide)) = u ∧
      UnpackedFloat.mul Format.binary64 u (.finite .negative (2 ^ 52) (-52) (by decide))
        = u.neg := by
  have hone : ∀ s : Sign, s * Sign.positive = s := by rintro (_ | _) <;> rfl
  have hneg : ∀ s : Sign, s * Sign.negative = -s := by rintro (_ | _) <;> rfl
  cases u with
  | infinity s => exact ⟨congrArg _ (hone s), congrArg _ (hneg s)⟩
  | notANumber => exact ⟨rfl, rfl⟩
  | zero s => exact ⟨congrArg _ (hone s), congrArg _ (hneg s)⟩
  | finite s m e hm =>
    have hround := fun t => @roundWithAccuracy_mul_two_pow s t m e hm h 52
    exact ⟨(hround _).trans (by rw [hone]), (hround _).trans (by rw [hneg]; rfl)⟩

/-- A float times one. -/
theorem numberOf_mul_one (x : Float) : numberOf (x * 1) = numberOf x := by
  have h := (mul_one_of_canonical (canonical_numberOf x)).1
  rw [← numberOf_one] at h
  rw [numberOf_mul (by rw [h]; exact canonical_numberOf x), h]

/-- A float times minus one. -/
theorem numberOf_mul_neg_one (x : Float) : numberOf (x * (-1)) = numberOf (-x) := by
  have h := (mul_one_of_canonical (canonical_numberOf x)).2
  rw [← numberOf_neg_one] at h
  rw [numberOf_mul (by rw [h]; exact canonical_neg (canonical_numberOf x)), h, numberOf_neg]

/-! ## The worth of a float -/

/-- A number without the sign of a zero. -/
def withoutZeroSign : UnpackedFloat → UnpackedFloat
  | .zero _ => .zero .positive
  | u => u

/-- What a float is worth: its number, where both zeros are the same. -/
def worth (x : Float) : UnpackedFloat := withoutZeroSign (numberOf x)

/-- Whether two floats are equal as numbers, or both are none. -/
def sameNumber (x y : Float) : Bool := x == y || (x.isNaN && y.isNaN)

/-- A number is equal to itself, unless it is none. -/
theorem beq_self (u : UnpackedFloat) : u.beq u = !u.isNaN := by
  cases u with
  | infinity s => cases s <;> rfl
  | notANumber => rfl
  | zero s => cases s <;> rfl
  | finite s m e hm =>
    cases s <;> simp [UnpackedFloat.beq, UnpackedFloat.compare, UnpackedFloat.isNaN]

/-- Only zeros differ in nothing but the sign of a zero. -/
theorem eq_or_zero_of_withoutZeroSign_eq {u v : UnpackedFloat}
    (h : withoutZeroSign u = withoutZeroSign v) :
    u = v ∨ ∃ s t, u = .zero s ∧ v = .zero t := by
  cases u with
  | zero s =>
    cases v with
    | zero t => exact Or.inr ⟨s, t, rfl, rfl⟩
    | _ => exact absurd h (by simp [withoutZeroSign])
  | _ =>
    cases v with
    | zero t => exact absurd h (by simp [withoutZeroSign])
    | _ => exact Or.inl h

/-- Floats that are worth the same are equal as numbers. -/
theorem sameNumber_of_worth_eq {x y : Float} (h : worth x = worth y) :
    sameNumber x y = true := by
  show ((numberOf x).beq (numberOf y) || ((numberOf x).isNaN && (numberOf y).isNaN)) = true
  rcases eq_or_zero_of_withoutZeroSign_eq h with heq | ⟨s, t, hx, hy⟩
  · rw [heq, beq_self, Bool.and_self, Bool.not_or_self]
  · rw [hx, hy]
    rfl

/-- The floats that are worth nothing are the zeros. -/
theorem worth_eq_zero_iff {x : Float} : worth x = worth 0 ↔ ∃ s, numberOf x = .zero s := by
  have hzero : worth 0 = .zero .positive := rfl
  rw [hzero, worth]
  cases numberOf x <;> simp [withoutZeroSign]

/-- Whether a float is finite is settled by its worth. -/
theorem isFinite_congr {x y : Float} (h : worth x = worth y) : x.isFinite = y.isFinite := by
  have hworth : ∀ z : Float, z.isFinite = (worth z).isFinite := by
    intro z
    show (numberOf z).isFinite = _
    unfold worth
    cases numberOf z <;> rfl
  rw [hworth, hworth, h]

/-- Zero is finite. -/
theorem isFinite_zero : (0 : Float).isFinite = true := rfl

/-- The opposite of a finite float is finite. -/
theorem isFinite_neg (x : Float) : (-x).isFinite = x.isFinite := by
  show (numberOf (-x)).isFinite = (numberOf x).isFinite
  rw [numberOf_neg]
  cases numberOf x <;> rfl

/-- The worth of an opposite is settled by the worth. -/
theorem worth_neg_congr {x y : Float} (h : worth x = worth y) : worth (-x) = worth (-y) := by
  have hneg : ∀ u : UnpackedFloat,
      withoutZeroSign u.neg = withoutZeroSign (withoutZeroSign u).neg := by
    intro u
    cases u <;> rfl
  unfold worth at h ⊢
  rw [numberOf_neg, numberOf_neg, hneg, h, ← hneg]

/-- A float times one. -/
theorem worth_mul_one (x : Float) : worth (x * 1) = worth x :=
  congrArg withoutZeroSign (numberOf_mul_one x)

/-- A float times minus one. -/
theorem worth_mul_neg_one (x : Float) : worth (x * (-1)) = worth (-x) :=
  congrArg withoutZeroSign (numberOf_mul_neg_one x)

/-- A finite float times zero. -/
theorem worth_mul_zero {x y : Float} (hx : x.isFinite = true) (hy : worth y = worth 0) :
    worth (x * y) = worth 0 := by
  obtain ⟨s, hs⟩ := worth_eq_zero_iff.1 hy
  have hfinite : (numberOf x).isFinite = true := hx
  have hcanonical : Canonical (UnpackedFloat.mul Format.binary64 (numberOf x) (numberOf y)) := by
    rw [hs]
    cases numberOf x <;> trivial
  rw [worth_eq_zero_iff, numberOf_mul hcanonical, hs]
  cases hnumber : numberOf x with
  | zero t => exact ⟨_, rfl⟩
  | finite t m e hm => exact ⟨_, rfl⟩
  | infinity t =>
    rw [hnumber] at hfinite
    exact absurd hfinite Bool.false_ne_true
  | notANumber =>
    rw [hnumber] at hfinite
    exact absurd hfinite Bool.false_ne_true

/-! ## Sums and differences -/

/-- The sum of two numbers does not depend on their order. -/
theorem add_comm_of_unpacked (u v : UnpackedFloat) :
    UnpackedFloat.add Format.binary64 u v = UnpackedFloat.add Format.binary64 v u := by
  cases u with
  | infinity s =>
    cases v with
    | infinity t => cases s <;> cases t <;> rfl
    | _ => rfl
  | notANumber => cases v <;> rfl
  | zero s =>
    cases v with
    | zero t => cases s <;> cases t <;> rfl
    | _ => rfl
  | finite s m e hm =>
    cases v with
    | finite t n e' hn => simp only [UnpackedFloat.add, Int.min_comm e e', Int.add_comm]
    | _ => rfl

/-- The sum of two floats does not depend on their order. -/
theorem float_add_comm (x y : Float) : x + y = y + x :=
  congrArg (fun u => Float.ofModel (Float.Model.pack u)) (add_comm_of_unpacked _ _)

/-- A difference is the sum with the opposite. -/
theorem float_sub_eq_add_neg (x y : Float) : x - y = x + -y := by
  have hsub : ∀ u v : UnpackedFloat, UnpackedFloat.sub Format.binary64 u v
      = UnpackedFloat.add Format.binary64 u v.neg := by
    intro u v
    cases v with
    | finite t n e hn =>
      cases u with
      | finite s m e' hm =>
        cases t <;>
          simp [UnpackedFloat.sub, UnpackedFloat.add, UnpackedFloat.neg, Sign.apply,
            Int.sub_eq_add_neg]
      | _ => rfl
    | _ => cases u <;> rfl
  show Float.ofModel (Float.Model.pack
      (UnpackedFloat.sub Format.binary64 (numberOf x) (numberOf y)))
    = Float.ofModel (Float.Model.pack
      (UnpackedFloat.add Format.binary64 (numberOf x) (numberOf (-y))))
  rw [hsub, numberOf_neg]

/-- A float and zero. -/
theorem worth_add_zero {x y : Float} (hy : worth y = worth 0) :
    worth (x + y) = worth x := by
  obtain ⟨s, hs⟩ := worth_eq_zero_iff.1 hy
  have hcanonical : Canonical (UnpackedFloat.add Format.binary64 (numberOf x) (numberOf y)) := by
    have hx := canonical_numberOf x
    rw [hs]
    cases hnumber : numberOf x with
    | zero t => cases t <;> cases s <;> trivial
    | finite t m e hm => rwa [hnumber] at hx
    | _ => trivial
  unfold worth
  rw [numberOf_add hcanonical, hs]
  cases numberOf x with
  | zero t => cases t <;> cases s <;> rfl
  | _ => rfl

/-- Zero and a float. -/
theorem worth_zero_add {x y : Float} (hx : worth x = worth 0) :
    worth (x + y) = worth y := by
  rw [float_add_comm, worth_add_zero hx]

/-- The opposite of a zero is a zero. -/
theorem worth_neg_zero {x : Float} (hx : worth x = worth 0) :
    worth (-x) = worth 0 := by
  obtain ⟨s, hs⟩ := worth_eq_zero_iff.1 hx
  rw [worth_eq_zero_iff, numberOf_neg, hs]
  exact ⟨-s, rfl⟩

/-- A float without zero. -/
theorem worth_sub_zero {x y : Float} (hy : worth y = worth 0) :
    worth (x - y) = worth x := by
  rw [float_sub_eq_add_neg, worth_add_zero (worth_neg_zero hy)]

/-- Zero without a float. -/
theorem worth_zero_sub {x y : Float} (hx : worth x = worth 0) :
    worth (x - y) = worth (-y) := by
  rw [float_sub_eq_add_neg, worth_zero_add hx]

/-! ## Numerals -/

/-- The sign of a number as it is packed. -/
def signOf (negative : Bool) : Sign := if negative then .negative else .positive

/-- The fields of a float with given bits below the sign. -/
theorem ofNat_signBits_add {k : Nat} (hk : k < 2 ^ 63) (negative : Bool) :
    BitVec.ofNat 64 (Double.signBits negative + k)
      = packComponents Format.binary64 (signOf negative) (BitVec.ofNat 11 (k / 2 ^ 52))
          (BitVec.ofNat 52 k) := by
  apply BitVec.eq_of_toNat_eq
  rw [toNat_packComponents, BitVec.toNat_ofNat, BitVec.toNat_ofNat, BitVec.toNat_ofNat]
  cases negative with
  | false =>
    have hsign : Double.signBits false = 0 ∧ (signOf false).toBitVec.toNat = 0 := ⟨rfl, rfl⟩
    rw [hsign.1, hsign.2]
    omega
  | true =>
    have hsign : Double.signBits true = 2 ^ 63 ∧ (signOf true).toBitVec.toNat = 1 :=
      ⟨by decide, rfl⟩
    rw [hsign.1, hsign.2]
    omega

/-- With the sign bit a float is the opposite of the one without. -/
theorem numberOf_ofBits_negative {k : Nat} (hk : k < 2 ^ 63) :
    numberOf (Float.ofBits (UInt64.ofNat (Double.signBits true + k)))
      = numberOf (-Float.ofBits (UInt64.ofNat (Double.signBits false + k))) := by
  have hbits : ∀ n : Nat, numberOf (Float.ofBits (UInt64.ofNat n))
      = UnpackedFloat.unpack Format.binary64 (BitVec.ofNat 64 n) :=
    fun n => numberOf_pack (canonical_unpack _)
  rw [numberOf_neg, hbits, hbits, ofNat_signBits_add hk, ofNat_signBits_add hk,
    unpack_packComponents, unpack_packComponents]
  split
  · split <;> rfl
  · split
    · split <;> rfl
    · rfl

/-- The bits of a magnitude leave out the sign. -/
theorem magnitudeBits_lt (x : Rat) : Double.magnitudeBits x < 2 ^ 63 := by
  have hinfinity : Double.infinityBits < 2 ^ 63 := by decide
  unfold Double.magnitudeBits
  split
  · decide
  · exact Nat.lt_of_le_of_lt (Nat.min_le_left _ _) hinfinity

/-- **A numeral with a minus is the opposite of the one without.** -/
theorem numberOf_toFloat_negative (coefficient : Nat) (exponent : Int) :
    numberOf (Numeral.toFloat ⟨true, coefficient, exponent⟩)
      = numberOf (-Numeral.toFloat ⟨false, coefficient, exponent⟩) := by
  have hfinite : ∀ magnitude : Rat, numberOf (Double.finite true magnitude).toFloat
      = numberOf (-(Double.finite false magnitude).toFloat) :=
    fun magnitude => numberOf_ofBits_negative (magnitudeBits_lt magnitude)
  have hinfinite : numberOf (Double.infinite true).toFloat
      = numberOf (-(Double.infinite false).toFloat) :=
    numberOf_ofBits_negative (by decide)
  unfold Numeral.toFloat
  split
  · exact hfinite 0
  · split
    · exact hinfinite
    · split
      · exact hfinite 0
      · exact hfinite _

end ComplexFormula
