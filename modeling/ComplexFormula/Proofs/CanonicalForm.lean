/-
# Canonical forms are read back

The canonical form of a number is a literal if both parts are finite, and the number that is
read from it has the parts of the number up to one unit of the last printed place. A part that
is no finite number is printed in letters that no literal has.

* `Double.IsWithin` : floats that differ by no more than a bound;
* `Double.exists_numeral_of_fixed` : a printed float is read back;
* `Complex.exists_literal_of_canonical` : so is the canonical form of a finite number;
* `Complex.ofLiteral_canonical` : which canonical forms are literals, and of which numbers.
-/
import Mathlib
import ComplexFormula.Complex.Canonical
import ComplexFormula.Proofs.Decimal.Layout
import ComplexFormula.Proofs.Float.Nearest
import ComplexFormula.Proofs.Literal.Grammar

namespace ComplexFormula

open Numeral (IsDecimal IsSign IsUnsigned)

/-! ## Distances -/

namespace Double

/-- Two finite numbers that differ by no more than `δ`. -/
def IsWithin (δ : Rat) (x y : Double) : Prop :=
  ∃ p q, x.toRat? = some p ∧ y.toRat? = some q ∧ |p - q| ≤ δ

/-- The tolerance below which parts are not shown is less than a unit of the last place. -/
theorem tolerance_le : tolerance ≤ 1 / 10000 := by
  unfold tolerance
  norm_num

/-- A number that is shown as a whole one is near it. -/
theorem IsWithin.of_isNear {n : Int} {x y : Double} (h : x.isNear n = true)
    (hy : y.toRat? = some (n : Rat)) : IsWithin (1 / 10000) x y := by
  cases x with
  | nan => simp [isNear] at h
  | infinite negative => simp [isNear] at h
  | finite negative magnitude =>
    simp only [isNear, decide_eq_true_eq] at h
    refine ⟨_, n, rfl, hy, ?_⟩
    have htolerance := tolerance_le
    rw [abs_le]
    constructor <;> linarith [h.1, h.2]

end Double

/-! ## Printed floats -/

/-- The float of a numeral within the range of powers is that of its value. -/
theorem Numeral.toFloat_eq {n : Numeral} (hlow : -400 ≤ n.exponent) (hhigh : n.exponent ≤ 400) :
    n.toFloat = (Double.finite n.negative n.magnitude).toFloat := by
  unfold toFloat
  split
  · next hzero =>
    rw [magnitude, hzero, Nat.cast_zero, zero_mul]
  · rw [if_neg (by omega), if_neg (by omega)]

namespace Double

/-- The numeral of a printed magnitude. -/
def fixedNumeral (negative : Bool) (magnitude : Rat) : Numeral :=
  ⟨negative, fixedUnits Complex.canonicalPlaces magnitude, -Complex.canonicalPlaces⟩

/-- **The numeral of a printed float has the value of the float**, up to one unit of the last
place: it is printed half a unit away at most, and no float is nearer to what is printed. -/
theorem isWithin_fixedNumeral {x : Float} {negative sign : Bool} {magnitude : Rat}
    (hx : ofFloat x = finite negative magnitude)
    (hsign : sign = (negative && magnitude != 0)) :
    IsWithin (1 / 10000) (ofFloat x) (ofFloat (fixedNumeral sign magnitude).toFloat) := by
  have hmagnitude := isMagnitude_of_ofFloat hx
  have hnonneg := hmagnitude.nonneg
  obtain ⟨printed, hvalue⟩ : ∃ printed, printed = fixedValue Complex.canonicalPlaces magnitude :=
    ⟨_, rfl⟩
  have hprinted : |printed - magnitude| ≤ 1 / 2 * (10 : Rat) ^ (-4 : Int) := by
    rw [hvalue]
    exact abs_fixedValue_sub_le Complex.canonicalPlaces hnonneg
  have hmax : printed ≤ largest := by
    have hwhole : largest = (((2 ^ 53 - 1) * 2 ^ 971 : Int) : Rat) := by
      rw [largest, Int.cast_mul, Int.cast_pow, ← zpow_natCast]
      norm_num
    rw [hwhole, hvalue]
    exact fixedValue_le _ hnonneg (hwhole ▸ hmagnitude.le_largest)
  have hpositive : 0 ≤ printed := hvalue ▸ fixedValue_nonneg _
  obtain ⟨r, hr, hnearest⟩ := exists_nearest_of_toFloat hpositive hmax sign
  have hfloat : ofFloat (fixedNumeral sign magnitude).toFloat = finite sign r := by
    have hexponent : (fixedNumeral sign magnitude).exponent = -4 := rfl
    rw [Numeral.toFloat_eq (by rw [hexponent]; decide) (by rw [hexponent]; decide), ← hr,
      hvalue]
    rfl
  have hdistance : |magnitude - r| ≤ 1 / 10000 := by
    calc |magnitude - r| ≤ |magnitude - printed| + |printed - r| := abs_sub_le _ _ _
      _ = |printed - magnitude| + |r - printed| := by
          rw [abs_sub_comm magnitude, abs_sub_comm printed r]
      _ ≤ 1 / 2 * (10 : Rat) ^ (-4 : Int) + 1 / 2 * (10 : Rat) ^ (-4 : Int) := by
          refine add_le_add hprinted ((hnearest _ hmagnitude).trans ?_)
          rwa [abs_sub_comm]
      _ = 1 / 10000 := by norm_num
  -- a zero is printed without its sign
  have hsigned : (if negative then -magnitude else magnitude)
      = if sign then -magnitude else magnitude := by
    by_cases hzero : magnitude = 0 <;> simp [hsign, hzero]
  refine ⟨_, _, congrArg toRat? hx, congrArg toRat? hfloat, ?_⟩
  rw [hsigned]
  cases sign with
  | false => exact hdistance
  | true =>
    show |-magnitude - -r| ≤ 1 / 10000
    rwa [neg_sub_neg, abs_sub_comm]

/-- The sign of a printed float is a sign. -/
theorem isSign_signChars (negative : Bool) : IsSign (signChars negative) := by
  cases negative with
  | false => exact Or.inl rfl
  | true => exact Or.inr (Or.inr rfl)

/-- The sign between the parts of a canonical form. -/
def joiningSign (negative : Bool) : Char := if negative then '-' else '+'

/-- It is one of two. -/
theorem joiningSign_eq (negative : Bool) :
    joiningSign negative = '+' ∨ joiningSign negative = '-' := by
  cases negative with
  | false => exact Or.inl rfl
  | true => exact Or.inr rfl

/-- Behind it the digits of a printed magnitude are read. -/
theorem read?_joiningSign (negative : Bool) (magnitude : Rat) :
    Numeral.read? (joiningSign negative :: fixedDigits Complex.canonicalPlaces magnitude)
      = some (fixedNumeral negative magnitude) := by
  have hsign : IsSign [joiningSign negative] := by
    rcases joiningSign_eq negative with h | h
    · exact Or.inr (Or.inl (by rw [h]))
    · exact Or.inr (Or.inr (by rw [h]))
  have hread :=
    Numeral.read?_append hsign (isUnsigned_fixedDigits Complex.canonicalPlaces magnitude)
  rw [readUnsigned?_fixedDigits] at hread
  cases negative <;> exact hread

/-- **A printed float is read back.** -/
theorem exists_numeral_of_fixed {x : Float} (hx : x.isFinite = true) :
    ∃ n, Numeral.read? (fixed Complex.canonicalPlaces (ofFloat x)) = some n ∧
      IsWithin (1 / 10000) (ofFloat x) (ofFloat n.toFloat) := by
  obtain ⟨negative, magnitude, hfinite⟩ := isFinite_iff.1 hx
  refine ⟨_, ?_, isWithin_fixedNumeral hfinite rfl⟩
  rw [hfinite, fixed_finite, Numeral.read?_append (isSign_signChars _)
    (isUnsigned_fixedDigits _ _), readUnsigned?_fixedDigits]
  cases negative && magnitude != 0 <;> rfl

/-- A number that is not finite is printed in letters that no literal has. -/
theorem exists_mem_fixed {x : Double} (hx : ∀ negative magnitude, x ≠ finite negative magnitude)
    (places : Nat) :
    ∃ c, c ∈ fixed places x ∧ c ∈ fixed places x.abs ∧ isBlank c = false ∧
      Complex.isLiteralChar c = false := by
  cases x with
  | nan => exact ⟨'N', by simp [fixed], by simp [fixed, abs], by decide, by decide⟩
  | infinite negative =>
    exact ⟨'n', by simp [fixed], by simp [fixed, abs], by decide, by decide⟩
  | finite negative magnitude => exact absurd rfl (hx negative magnitude)

/-- Such a number is shown as no whole one. -/
theorem isNear_of_not_finite {x : Double}
    (hx : ∀ negative magnitude, x ≠ finite negative magnitude) (n : Int) :
    x.isNear n = false := by
  cases x with
  | finite negative magnitude => exact absurd rfl (hx negative magnitude)
  | _ => rfl

end Double

/-! ## Canonical forms -/

namespace Complex

/-- Numbers with finite parts that differ by no more than `δ`. -/
def IsWithin (δ : Rat) (z w : Complex) : Prop :=
  Double.IsWithin δ (Double.ofFloat z.re) (Double.ofFloat w.re) ∧
    Double.IsWithin δ (Double.ofFloat z.im) (Double.ofFloat w.im)

/-- A canonical form is read without its blanks. -/
theorem ofLiteral_canonical_eq (z : Complex) :
    ofLiteral z.canonical = ofBareLiteral (withoutBlanks z.canonicalChars) := by
  rw [ofLiteral, canonical, String.toList_ofList]

/-- A decimal has no blanks. -/
theorem withoutBlanks_of_isDecimal {d : List Char} (h : IsDecimal d) : withoutBlanks d = d :=
  withoutBlanks_of_forall fun c hc => isBlank_of_class (by decide) (h.isDecimalChar c hc)

section

variable {z : Complex}

/-- A number with a negligible imaginary part is shown by its real part. -/
theorem canonicalChars_real (him : (Double.ofFloat z.im).isNear 0 = true) :
    z.canonicalChars = Double.fixed canonicalPlaces (Double.ofFloat z.re) := by
  unfold canonicalChars
  simp only
  rw [if_pos him]

/-- A number with a negligible real part is shown by its imaginary part. -/
theorem canonicalChars_imaginary (him : (Double.ofFloat z.im).isNear 0 = false)
    (hre : (Double.ofFloat z.re).isNear 0 = true) :
    z.canonicalChars
      = if (Double.ofFloat z.im).isNear 1 then ['i']
        else if (Double.ofFloat z.im).isNear (-1) then ['-', 'i']
        else Double.fixed canonicalPlaces (Double.ofFloat z.im) ++ ['i'] := by
  unfold canonicalChars
  simp only
  rw [if_neg (by rw [him]; exact Bool.false_ne_true), if_pos hre]

/-- Any other number is shown by both. -/
theorem canonicalChars_mixed (him : (Double.ofFloat z.im).isNear 0 = false)
    (hre : (Double.ofFloat z.re).isNear 0 = false) :
    z.canonicalChars
      = if (Double.ofFloat z.im).isNegative then
          Double.fixed canonicalPlaces (Double.ofFloat z.re) ++ [' ', '-', ' '] ++
            Double.fixed canonicalPlaces (Double.ofFloat z.im).abs ++ ['i']
        else
          Double.fixed canonicalPlaces (Double.ofFloat z.re) ++ [' ', '+', ' '] ++
            Double.fixed canonicalPlaces (Double.ofFloat z.im) ++ ['i'] := by
  unfold canonicalChars
  simp only
  rw [if_neg (by rw [him]; exact Bool.false_ne_true),
    if_neg (by rw [hre]; exact Bool.false_ne_true)]

/-! ## Numbers that are not finite -/

/-- Where the real part is not negligible it is printed. -/
theorem mem_canonicalChars_re {c : Char} (hnear : (Double.ofFloat z.re).isNear 0 = false)
    (hc : c ∈ Double.fixed canonicalPlaces (Double.ofFloat z.re)) : c ∈ z.canonicalChars := by
  cases him : (Double.ofFloat z.im).isNear 0 with
  | true => rwa [canonicalChars_real him]
  | false =>
    rw [canonicalChars_mixed him hnear]
    split <;> simp [hc]

/-- Where the imaginary part is shown as no whole number it is printed. -/
theorem mem_canonicalChars_im {c : Char} (hnear : ∀ n, (Double.ofFloat z.im).isNear n = false)
    (hc : c ∈ Double.fixed canonicalPlaces (Double.ofFloat z.im))
    (habs : c ∈ Double.fixed canonicalPlaces (Double.ofFloat z.im).abs) :
    c ∈ z.canonicalChars := by
  cases hre : (Double.ofFloat z.re).isNear 0 with
  | true =>
    rw [canonicalChars_imaginary (hnear 0) hre]
    simp [hnear, hc]
  | false =>
    rw [canonicalChars_mixed (hnear 0) hre]
    split
    · simp [habs]
    · simp [hc]

/-- **Only the canonical forms of finite numbers are literals.** -/
theorem isFinite_of_ofLiteral_canonical {w : Complex} (h : ofLiteral z.canonical = .ok w) :
    z.re.isFinite = true ∧ z.im.isFinite = true := by
  rw [ofLiteral_canonical_eq] at h
  have hchars : ∀ c ∈ z.canonicalChars, isBlank c = false → isLiteralChar c ≠ false := by
    intro c hc hblank hliteral
    have hread := isLiteralChar_of_ofBareLiteral h c (List.mem_filter.2 ⟨hc, by rw [hblank]; rfl⟩)
    rw [hliteral] at hread
    exact Bool.false_ne_true hread
  rw [Double.isFinite_iff, Double.isFinite_iff]
  constructor
  · by_contra hre
    have hnone := fun negative magnitude heq => hre ⟨negative, magnitude, heq⟩
    obtain ⟨c, hc, -, hblank, hliteral⟩ := Double.exists_mem_fixed hnone canonicalPlaces
    have hshown := mem_canonicalChars_re (Double.isNear_of_not_finite hnone 0) hc
    exact hchars c hshown hblank hliteral
  · by_contra him
    have hnone := fun negative magnitude heq => him ⟨negative, magnitude, heq⟩
    obtain ⟨c, hc, habs, hblank, hliteral⟩ := Double.exists_mem_fixed hnone canonicalPlaces
    have hshown := mem_canonicalChars_im (Double.isNear_of_not_finite hnone) hc habs
    exact hchars c hshown hblank hliteral

/-! ## Finite numbers -/

/-- Between the parts of a number the blanks are dropped. -/
theorem withoutBlanks_mixed {d u : List Char} (hd : IsDecimal d) (hu : IsUnsigned u)
    {sign : Char} (hsign : sign = '+' ∨ sign = '-') :
    withoutBlanks (d ++ [' ', sign, ' '] ++ u ++ ['i']) = d ++ sign :: (u ++ ['i']) := by
  have hu' : IsDecimal u := ⟨[], u, rfl, Or.inl rfl, hu⟩
  have hbetween : withoutBlanks [' ', sign, ' '] = [sign] := by
    rcases hsign with rfl | rfl <;> decide
  have hunit : withoutBlanks ['i'] = ['i'] := by decide
  have happend : ∀ s t, withoutBlanks (s ++ t) = withoutBlanks s ++ withoutBlanks t :=
    fun _ _ => List.filter_append ..
  rw [happend, happend, happend, withoutBlanks_of_isDecimal hd, withoutBlanks_of_isDecimal hu',
    hbetween, hunit]
  simp

/-- A part that is negligible is read as zero. -/
theorem isWithin_zero {x : Float} (h : (Double.ofFloat x).isNear 0 = true) :
    Double.IsWithin (1 / 10000) (Double.ofFloat x) (Double.ofFloat 0) :=
  .of_isNear h (by decide +kernel)

/-- The form without a real part is read back. -/
theorem exists_literal_of_imaginary (hre : (Double.ofFloat z.re).isNear 0 = true)
    (hnear : (Double.ofFloat z.im).isNear 0 = false) (him : z.im.isFinite = true) :
    ∃ w, IsLiteral (withoutBlanks z.canonicalChars) w ∧ z.IsWithin (1 / 10000) w := by
  rw [canonicalChars_imaginary hnear hre]
  split
  · next hone =>
    have hliteral := @IsLiteral.unit [] 'i' (Or.inl rfl) (by decide)
    exact ⟨⟨0, 1⟩, hliteral, isWithin_zero hre, .of_isNear hone (by decide +kernel)⟩
  · split
    · next hminus =>
      have hliteral := @IsLiteral.unit ['-'] 'i' (Or.inr (Or.inr rfl)) (by decide)
      exact ⟨⟨0, -1⟩, hliteral, isWithin_zero hre, .of_isNear hminus (by decide +kernel)⟩
    · obtain ⟨n, hn, hwithin⟩ := Double.exists_numeral_of_fixed him
      have hd := Numeral.isDecimal_of_read? hn
      have hblanks : withoutBlanks (Double.fixed canonicalPlaces (Double.ofFloat z.im) ++ ['i'])
          = Double.fixed canonicalPlaces (Double.ofFloat z.im) ++ ['i'] := by
        rw [withoutBlanks, List.filter_append]
        exact congrArg (· ++ ['i']) (withoutBlanks_of_isDecimal hd)
      rw [hblanks]
      exact ⟨_, .imaginary hd hn (by decide), isWithin_zero hre, hwithin⟩

/-- A number with both parts is shown as its parts with the sign of the second one between
them. -/
theorem canonicalChars_parts (hre : (Double.ofFloat z.re).isNear 0 = false)
    (hnear : (Double.ofFloat z.im).isNear 0 = false) {negative : Bool} {magnitude : Rat}
    (him : Double.ofFloat z.im = .finite negative magnitude) :
    z.canonicalChars
      = Double.fixed canonicalPlaces (Double.ofFloat z.re)
          ++ [' ', Double.joiningSign (negative && magnitude != 0), ' ']
          ++ Double.fixedDigits canonicalPlaces magnitude ++ ['i'] := by
  have hnegative : (Double.ofFloat z.im).isNegative = (negative && magnitude != 0) := by
    rw [him]
    rfl
  rw [canonicalChars_mixed hnear hre, hnegative, him, Double.abs, Double.fixed_finite,
    Double.fixed_finite]
  cases negative && magnitude != 0 <;> rfl

/-- The form with both parts is read back. -/
theorem exists_literal_of_mixed (hre : (Double.ofFloat z.re).isNear 0 = false)
    (hnear : (Double.ofFloat z.im).isNear 0 = false) (hfinite : z.re.isFinite = true)
    (him : z.im.isFinite = true) :
    ∃ w, IsLiteral (withoutBlanks z.canonicalChars) w ∧ z.IsWithin (1 / 10000) w := by
  obtain ⟨n, hn, hwithin⟩ := Double.exists_numeral_of_fixed hfinite
  obtain ⟨negative, magnitude, hdouble⟩ := Double.isFinite_iff.1 him
  have hd := Numeral.isDecimal_of_read? hn
  have hu := Double.isUnsigned_fixedDigits canonicalPlaces magnitude
  have hsign := Double.joiningSign_eq (negative && magnitude != 0)
  have hm := Double.read?_joiningSign (negative && magnitude != 0) magnitude
  rw [canonicalChars_parts hre hnear hdouble, withoutBlanks_mixed hd hu hsign]
  exact ⟨_, .mixed hd hn hsign hu hm (by decide), hwithin,
    Double.isWithin_fixedNumeral hdouble rfl⟩

/-- **The canonical form of a finite number is read back.** -/
theorem exists_literal_of_canonical (hre : z.re.isFinite = true) (him : z.im.isFinite = true) :
    ∃ w, ofLiteral z.canonical = .ok w ∧ z.IsWithin (1 / 10000) w := by
  obtain ⟨w, hw, hwithin⟩ :
      ∃ w, IsLiteral (withoutBlanks z.canonicalChars) w ∧ z.IsWithin (1 / 10000) w := by
    cases hnear : (Double.ofFloat z.im).isNear 0 with
    | true =>
      obtain ⟨n, hn, hwithin⟩ := Double.exists_numeral_of_fixed hre
      have hd := Numeral.isDecimal_of_read? hn
      rw [canonicalChars_real hnear, withoutBlanks_of_isDecimal hd]
      exact ⟨_, .real hd hn, hwithin, isWithin_zero hnear⟩
    | false =>
      cases hnear' : (Double.ofFloat z.re).isNear 0 with
      | true => exact exists_literal_of_imaginary hnear' hnear him
      | false => exact exists_literal_of_mixed hnear' hnear hre him
  refine ⟨w, ?_, hwithin⟩
  rw [ofLiteral_canonical_eq]
  exact ofBareLiteral_of_isLiteral hw

end

/-- **Canonical forms are read back.** The canonical form of a number is a literal if and only
if both parts of the number are finite, and then each part of the literal differs from that of
the number by no more than one unit of the last place. -/
theorem ofLiteral_canonical (z : Complex) :
    ((∃ w, ofLiteral z.canonical = .ok w) ↔ z.re.isFinite = true ∧ z.im.isFinite = true) ∧
      ∀ w, ofLiteral z.canonical = .ok w → z.IsWithin (1 / 10000) w := by
  refine ⟨⟨?_, ?_⟩, fun w hw => ?_⟩
  · rintro ⟨w, hw⟩
    exact isFinite_of_ofLiteral_canonical hw
  · rintro ⟨hre, him⟩
    obtain ⟨w, hw, -⟩ := exists_literal_of_canonical hre him
    exact ⟨w, hw⟩
  · obtain ⟨hre, him⟩ := isFinite_of_ofLiteral_canonical hw
    obtain ⟨w', hw', hwithin⟩ := exists_literal_of_canonical hre him
    rw [hw] at hw'
    rwa [Except.ok.inj hw']

/-- A negative real part that rounds to zero is printed with its sign, before the sign of the
imaginary part, and both are read back. -/
theorem ofLiteral_canonical_signs :
    (⟨-0.00001, -2.5⟩ : Complex).canonical = "-0.0000 - 2.5000i" ∧
      ofLiteral "-0.0000 - 2.5000i" = .ok ⟨-0, -2.5⟩ ∧
      (⟨-0.00001, -2.5⟩ : Complex).IsWithin (1 / 10000) ⟨-0, -2.5⟩ := by
  obtain ⟨hform, hread⟩ : (⟨-0.00001, -2.5⟩ : Complex).canonical = "-0.0000 - 2.5000i" ∧
      ofLiteral "-0.0000 - 2.5000i" = .ok ⟨-0, -2.5⟩ := by
    decide +kernel
  have hwithin := (ofLiteral_canonical ⟨-0.00001, -2.5⟩).2 ⟨-0, -2.5⟩
  rw [hform] at hwithin
  exact ⟨hform, hread, hwithin hread⟩

end Complex

end ComplexFormula
