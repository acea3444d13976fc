/-
# Letters, digits and blanks

No character belongs to two of these classes.
-/
import Mathlib.Tactic.Common
import ComplexFormula.Text.Blank
import ComplexFormula.Text.Letter

namespace ComplexFormula

/-- A digit is no capital letter. -/
theorem isUpper_of_isDigit {c : Char} (h : c.isDigit = true) : c.isUpper = false := by
  have hhigh : c.toNat ≤ 57 := (Char.isDigit_iff_toNat.1 h).2
  refine decide_eq_false fun hc => ?_
  have hA : 65 ≤ c.toNat := UInt32.le_iff_toNat_le.1 hc.1
  omega

/-- A digit is no letter. -/
theorem isLetter_of_isDigit {c : Char} (h : c.isDigit = true) : isLetter c = false := by
  have hhigh : c.toNat ≤ 57 := (Char.isDigit_iff_toNat.1 h).2
  have hupper := isUpper_of_isDigit h
  have hlower : c.isLower = false := by
    refine Bool.and_eq_false_iff.2 (Or.inl (decide_eq_false fun hc => ?_))
    have ha : 97 ≤ c.toNat := UInt32.le_iff_toNat_le.1 hc
    omega
  unfold isLetter
  rw [if_pos (by omega)]
  show (c.isUpper || c.isLower) = false
  rw [hupper, hlower]
  rfl

/-- The code points of the blanks. -/
def blankCodes : List Nat :=
  [0x09, 0x0A, 0x0B, 0x0C, 0x0D, 0x20, 0x85, 0xA0, 0x1680, 0x2000, 0x2001, 0x2002, 0x2003,
    0x2004, 0x2005, 0x2006, 0x2007, 0x2008, 0x2009, 0x200A, 0x2028, 0x2029, 0x202F, 0x205F,
    0x3000]

/-- A blank has one of the code points of blanks. -/
theorem mem_blankCodes {c : Char} (h : isBlank c = true) : c.toNat ∈ blankCodes := by
  simp only [isBlank, Bool.or_eq_true, Bool.and_eq_true, decide_eq_true_eq] at h
  simp only [blankCodes, List.mem_cons, List.not_mem_nil, or_false]
  omega

/-- A class of characters that holds none of these code points holds no blank. -/
theorem isBlank_of_class {p : Char → Bool} (hp : ∀ n ∈ blankCodes, p (Char.ofNat n) = false)
    {c : Char} (h : p c = true) : isBlank c = false := by
  cases hblank : isBlank c with
  | false => rfl
  | true =>
    have hc := hp c.toNat (mem_blankCodes hblank)
    rw [Char.ofNat_toNat, h] at hc
    exact absurd hc (by decide)

/-- A letter is no blank. -/
theorem isBlank_of_isLetter {c : Char} (h : isLetter c = true) : isBlank c = false :=
  isBlank_of_class (by decide +kernel) h

/-- A text without blanks is left as it is. -/
theorem withoutBlanks_of_forall {s : List Char} (h : ∀ c ∈ s, isBlank c = false) :
    withoutBlanks s = s := by
  rw [withoutBlanks, List.filter_eq_self]
  intro c hc
  rw [h c hc]
  rfl

end ComplexFormula
