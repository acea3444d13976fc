/-
# Decimals

What a text has to look like to be read as a decimal numeral.

* `Numeral.IsDecimal` : an optional sign, digits with at most one point, an optional power
  of ten;
* `Numeral.exists_read?_iff` : exactly the decimals are read;
* `Numeral.IsDecimal.isDecimalChar` : the characters that a decimal can have.
-/
import Mathlib.Data.List.Basic
import ComplexFormula.Decimal.Numeral

namespace ComplexFormula

namespace Numeral

/-! ## The shape of decimals -/

/-- An optional sign. -/
def IsSign (s : List Char) : Prop := s = [] ∨ s = ['+'] ∨ s = ['-']

/-- A run of digits, which may be empty. -/
def IsDigits (s : List Char) : Prop := ∀ c ∈ s, c.isDigit = true

/-- An optional power of ten. -/
inductive IsExponent : List Char → Prop
  | none : IsExponent []
  | power {mark : Char} {sign digits : List Char} (hmark : mark = 'e' ∨ mark = 'E')
      (hsign : IsSign sign) (hne : digits ≠ []) (hdigits : IsDigits digits) :
      IsExponent (mark :: (sign ++ digits))

/-- A decimal without a sign: digits with at most one point among them, at least one, and
an optional power of ten. -/
inductive IsUnsigned : List Char → Prop
  | whole {digits exponent : List Char} (hne : digits ≠ []) (hdigits : IsDigits digits)
      (hexponent : IsExponent exponent) : IsUnsigned (digits ++ exponent)
  | point {whole fraction exponent : List Char} (hne : whole ++ fraction ≠ [])
      (hwhole : IsDigits whole) (hfraction : IsDigits fraction)
      (hexponent : IsExponent exponent) : IsUnsigned (whole ++ '.' :: fraction ++ exponent)

/-- An optionally signed decimal. -/
def IsDecimal (s : List Char) : Prop :=
  ∃ sign unsigned, s = sign ++ unsigned ∧ IsSign sign ∧ IsUnsigned unsigned

/-! ## Only decimals are read -/

/-- A sign that is split off is a sign. -/
theorem isSign_readSign (s : List Char) :
    ∃ sign, IsSign sign ∧ s = sign ++ (readSign s).2 := by
  unfold readSign
  split
  · exact ⟨['-'], Or.inr (Or.inr rfl), rfl⟩
  · exact ⟨['+'], Or.inr (Or.inl rfl), rfl⟩
  · exact ⟨[], Or.inl rfl, rfl⟩

/-- Digits that are split off are digits. -/
theorem isDigits_readDigits (s : List Char) : IsDigits (readDigits s).1 :=
  fun _ hc => (List.all_eq_true.1 List.all_takeWhile) _ hc

/-- Splitting off digits loses nothing. -/
theorem readDigits_append (s : List Char) : (readDigits s).1 ++ (readDigits s).2 = s :=
  List.takeWhile_append_dropWhile

/-- A power of ten is read from an exponent alone. -/
theorem isExponent_of_readExponent? {s : List Char} {power : Int}
    (h : readExponent? s = some power) : IsExponent s := by
  unfold readExponent? at h
  split at h
  · exact IsExponent.none
  · next mark rest =>
    split at h
    · next hmark =>
      obtain ⟨sign, hsign, hrest⟩ := isSign_readSign rest
      simp only at h
      split at h
      · simp at h
      · next hdigits =>
        simp only [Bool.or_eq_true, List.isEmpty_iff, Bool.not_eq_true', not_or,
          Bool.not_eq_false] at hdigits
        -- the digits reach to the end of the text
        have hsplit := readDigits_append (readSign rest).2
        rw [hdigits.2, List.append_nil] at hsplit
        rw [hrest, ← hsplit]
        exact IsExponent.power hmark hsign hdigits.1 (isDigits_readDigits _)
    · simp at h

/-- Without a sign, only decimals are read. -/
theorem isUnsigned_of_readUnsigned? {s : List Char} {n : Numeral}
    (h : readUnsigned? s = some n) : IsUnsigned s := by
  unfold readUnsigned? at h
  simp only at h
  split at h
  · simp at h
  · next hdigits =>
    rw [Option.map_eq_some_iff] at h
    obtain ⟨power, hpower, -⟩ := h
    have hexponent := isExponent_of_readExponent? hpower
    have hwhole := isDigits_readDigits s
    have hsplit := readDigits_append s
    -- what follows the digits is a point with more of them, or the exponent
    unfold readFraction at hexponent hdigits
    split at hexponent
    · next rest hrest =>
      rw [hrest] at hsplit hdigits
      rw [← hsplit, ← readDigits_append rest, ← List.cons_append, ← List.append_assoc]
      refine IsUnsigned.point ?_ hwhole (isDigits_readDigits rest) hexponent
      simpa [List.append_eq_nil_iff] using hdigits
    · rw [← hsplit]
      refine IsUnsigned.whole ?_ hwhole hexponent
      simpa using hdigits

/-- Only decimals are read. -/
theorem isDecimal_of_read? {s : List Char} {n : Numeral} (h : read? s = some n) :
    IsDecimal s := by
  unfold read? at h
  simp only [Option.map_eq_some_iff] at h
  obtain ⟨unsigned, hunsigned, -⟩ := h
  obtain ⟨sign, hsign, hs⟩ := isSign_readSign s
  exact ⟨sign, _, hs, hsign, isUnsigned_of_readUnsigned? hunsigned⟩

/-! ## The characters of decimals -/

/-- Digits are characters of decimals. -/
theorem IsDigits.isDecimalChar {s : List Char} (h : IsDigits s) :
    ∀ c ∈ s, isDecimalChar c = true := by
  intro c hc
  simp [Numeral.isDecimalChar, h c hc]

/-- No other character is among digits. -/
theorem IsDigits.not_mem {s : List Char} (h : IsDigits s) {c : Char} (hc : c.isDigit = false) :
    c ∉ s := by
  intro hmem
  rw [h c hmem] at hc
  exact absurd hc (by decide)

/-- Signs are characters of decimals. -/
theorem IsSign.isDecimalChar {s : List Char} (h : IsSign s) :
    ∀ c ∈ s, isDecimalChar c = true := by
  rcases h with rfl | rfl | rfl <;> simp [Numeral.isDecimalChar]

/-- A power of ten has only characters of decimals. -/
theorem IsExponent.isDecimalChar {s : List Char} (h : IsExponent s) :
    ∀ c ∈ s, isDecimalChar c = true := by
  cases h with
  | none => simp
  | power hmark hsign _ hdigits =>
    intro c hc
    rcases List.mem_cons.1 hc with rfl | hc
    · rcases hmark with rfl | rfl <;> rfl
    · rcases List.mem_append.1 hc with hc | hc
      · exact hsign.isDecimalChar c hc
      · exact hdigits.isDecimalChar c hc

/-- A decimal without a sign has only characters of decimals. -/
theorem IsUnsigned.isDecimalChar {s : List Char} (h : IsUnsigned s) :
    ∀ c ∈ s, isDecimalChar c = true := by
  intro c hc
  cases h with
  | whole _ hdigits hexponent =>
    rcases List.mem_append.1 hc with hc | hc
    · exact hdigits.isDecimalChar c hc
    · exact hexponent.isDecimalChar c hc
  | point _ hwhole hfraction hexponent =>
    rcases List.mem_append.1 hc with hc | hc
    · rcases List.mem_append.1 hc with hc | hc
      · exact hwhole.isDecimalChar c hc
      · rcases List.mem_cons.1 hc with rfl | hc
        · rfl
        · exact hfraction.isDecimalChar c hc
    · exact hexponent.isDecimalChar c hc

/-- A decimal has only characters of decimals. -/
theorem IsDecimal.isDecimalChar {s : List Char} (h : IsDecimal s) :
    ∀ c ∈ s, isDecimalChar c = true := by
  obtain ⟨sign, unsigned, rfl, hsign, hunsigned⟩ := h
  intro c hc
  rcases List.mem_append.1 hc with hc | hc
  · exact hsign.isDecimalChar c hc
  · exact hunsigned.isDecimalChar c hc

/-- A decimal has a digit. -/
theorem IsDecimal.exists_isDigit {s : List Char} (h : IsDecimal s) :
    ∃ c ∈ s, c.isDigit = true := by
  obtain ⟨sign, unsigned, rfl, -, hunsigned⟩ := h
  cases hunsigned with
  | @whole digits exponent hne hdigits _ =>
    obtain ⟨c, hc⟩ := List.exists_mem_of_ne_nil _ hne
    exact ⟨c, by simp [hc], hdigits c hc⟩
  | @point whole fraction exponent hne hwhole hfraction _ =>
    obtain ⟨c, hc⟩ := List.exists_mem_of_ne_nil _ hne
    rcases List.mem_append.1 hc with hc | hc
    · exact ⟨c, by simp [hc], hwhole c hc⟩
    · exact ⟨c, by simp [hc], hfraction c hc⟩

/-! ## All decimals are read -/

/-- Digits are split off up to the first character that is none. -/
theorem readDigits_append_of_digits {digits rest : List Char} (hdigits : IsDigits digits)
    (hrest : ∀ c ∈ rest.head?, c.isDigit = false) :
    readDigits (digits ++ rest) = (digits, rest) := by
  have htail : rest.takeWhile Char.isDigit = [] ∧ rest.dropWhile Char.isDigit = rest := by
    cases rest with
    | nil => exact ⟨rfl, rfl⟩
    | cons c rest =>
      have hc : ¬ c.isDigit = true := by
        rw [hrest c rfl]
        exact Bool.false_ne_true
      exact ⟨List.takeWhile_cons_of_neg hc, List.dropWhile_cons_of_neg hc⟩
  rw [readDigits, List.takeWhile_append_of_pos hdigits, List.dropWhile_append_of_pos hdigits,
    htail.1, htail.2, List.append_nil]

/-- A sign is split off before a text that begins with none. -/
theorem readSign_append {sign rest : List Char} (hsign : IsSign sign)
    (hrest : ∀ c ∈ rest.head?, c ≠ '+' ∧ c ≠ '-') :
    readSign (sign ++ rest) = (decide (sign = ['-']), rest) := by
  rcases hsign with rfl | rfl | rfl
  · cases rest with
    | nil => rfl
    | cons c rest =>
      obtain ⟨hplus, hminus⟩ := hrest c rfl
      unfold readSign
      split
      · next heq => exact absurd (List.cons.inj heq).1 hminus
      · next heq => exact absurd (List.cons.inj heq).1 hplus
      · rfl
  · rfl
  · rfl

/-- A digit is no sign. -/
theorem ne_sign_of_isDigit {c : Char} (h : c.isDigit = true) : c ≠ '+' ∧ c ≠ '-' := by
  constructor
  · rintro rfl
    exact absurd h (by decide)
  · rintro rfl
    exact absurd h (by decide)

/-- A run of digits begins with no sign. -/
theorem IsDigits.head_ne_sign {digits : List Char} (h : IsDigits digits) :
    ∀ c ∈ digits.head?, c ≠ '+' ∧ c ≠ '-' :=
  fun c hc => ne_sign_of_isDigit (h c (List.mem_of_mem_head? hc))

/-- A power of ten begins with its mark. -/
theorem IsExponent.head_eq {exponent : List Char} (h : IsExponent exponent) :
    ∀ c ∈ exponent.head?, c = 'e' ∨ c = 'E' := by
  cases h with
  | none => simp
  | power hmark _ _ _ =>
    intro c hc
    obtain rfl := Option.some.inj hc
    exact hmark

/-- A power of ten begins with no digit. -/
theorem IsExponent.isDigit_head {exponent : List Char} (h : IsExponent exponent) :
    ∀ c ∈ exponent.head?, c.isDigit = false := by
  intro c hc
  rcases h.head_eq c hc with rfl | rfl <;> decide

/-- A power of ten begins with no sign. -/
theorem IsExponent.head_ne_sign {exponent : List Char} (h : IsExponent exponent) :
    ∀ c ∈ exponent.head?, c ≠ '+' ∧ c ≠ '-' := by
  intro c hc
  rcases h.head_eq c hc with rfl | rfl <;> decide

/-- Every power of ten is read. -/
theorem IsExponent.exists_readExponent? {exponent : List Char} (h : IsExponent exponent) :
    ∃ power, readExponent? exponent = some power := by
  cases h with
  | none => exact ⟨0, rfl⟩
  | @power mark sign digits hmark hsign hne hdigits =>
    have hread : readDigits digits = (digits, []) := by
      have hsplit := @readDigits_append_of_digits digits [] hdigits (by simp)
      rwa [List.append_nil] at hsplit
    simp only [readExponent?, if_pos hmark, readSign_append hsign hdigits.head_ne_sign, hread,
      List.isEmpty_nil, List.isEmpty_eq_false_iff.2 hne]
    exact ⟨_, rfl⟩

/-- Every decimal without a sign is read. -/
theorem IsUnsigned.exists_readUnsigned? {s : List Char} (h : IsUnsigned s) :
    ∃ n, readUnsigned? s = some n := by
  cases h with
  | @whole digits exponent hne hdigits hexponent =>
    obtain ⟨power, hpower⟩ := hexponent.exists_readExponent?
    have hsplit := readDigits_append_of_digits hdigits hexponent.isDigit_head
    have hfraction : readFraction exponent = ([], exponent) := by
      unfold readFraction
      split
      · next rest => exact absurd (hexponent.head_eq '.' rfl) (by decide)
      · rfl
    simp only [readUnsigned?, hsplit, hfraction, List.isEmpty_eq_false_iff.2 hne, hpower]
    exact ⟨_, rfl⟩
  | @point whole fraction exponent hne hwhole hfraction hexponent =>
    obtain ⟨power, hpower⟩ := hexponent.exists_readExponent?
    have hsplit : readDigits (whole ++ '.' :: fraction ++ exponent)
        = (whole, '.' :: (fraction ++ exponent)) := by
      rw [List.append_assoc, List.cons_append]
      refine readDigits_append_of_digits hwhole fun c hc => ?_
      obtain rfl := Option.some.inj hc
      decide
    have hfraction' : readFraction ('.' :: (fraction ++ exponent)) = (fraction, exponent) :=
      readDigits_append_of_digits hfraction hexponent.isDigit_head
    have hdigits : (whole.isEmpty && fraction.isEmpty) = false := by
      rw [Bool.and_eq_false_iff, List.isEmpty_eq_false_iff, List.isEmpty_eq_false_iff]
      by_contra hempty
      rw [not_or, not_not, not_not] at hempty
      rw [hempty.1, hempty.2] at hne
      exact hne rfl
    simp only [readUnsigned?, hsplit, hfraction', hdigits, hpower]
    exact ⟨_, rfl⟩

/-- A decimal without a sign begins with none. -/
theorem IsUnsigned.head_ne_sign {s : List Char} (h : IsUnsigned s) :
    ∀ c ∈ s.head?, c ≠ '+' ∧ c ≠ '-' := by
  cases h with
  | whole hne hdigits _ =>
    obtain ⟨d, digits, rfl⟩ := List.exists_cons_of_ne_nil hne
    exact hdigits.head_ne_sign
  | @point whole fraction exponent _ hwhole _ _ =>
    intro c hc
    cases whole with
    | nil =>
      obtain rfl := Option.some.inj hc
      decide
    | cons d whole =>
      obtain rfl := Option.some.inj hc
      exact ne_sign_of_isDigit (hwhole d List.mem_cons_self)

/-- A decimal ends in a digit or a point. -/
theorem IsUnsigned.exists_getLast? {s : List Char} (h : IsUnsigned s) :
    ∃ c, s.getLast? = some c ∧ (c.isDigit = true ∨ c = '.') := by
  -- the last digits are those of the power of ten, if there is one
  have hends : ∀ {front exponent : List Char}, IsExponent exponent →
      (∃ c, front.getLast? = some c ∧ (c.isDigit = true ∨ c = '.')) →
      ∃ c, (front ++ exponent).getLast? = some c ∧ (c.isDigit = true ∨ c = '.') := by
    intro front exponent hexponent hfront
    cases hexponent with
    | none => rwa [List.append_nil]
    | @power mark sign digits hmark hsign hne hdigits =>
      obtain ⟨front', c, rfl⟩ := (List.eq_nil_or_concat' digits).resolve_left hne
      refine ⟨c, List.getLast?_eq_some_iff.2 ⟨front ++ mark :: (sign ++ front'), by simp⟩, ?_⟩
      exact Or.inl (hdigits c (by simp))
  cases h with
  | @whole digits exponent hne hdigits hexponent =>
    refine hends hexponent ?_
    obtain ⟨front, c, rfl⟩ := (List.eq_nil_or_concat' digits).resolve_left hne
    exact ⟨c, List.getLast?_concat, Or.inl (hdigits c (by simp))⟩
  | @point whole fraction exponent hne hwhole hfraction hexponent =>
    refine hends hexponent ?_
    rcases List.eq_nil_or_concat' fraction with rfl | ⟨front, c, rfl⟩
    · exact ⟨'.', List.getLast?_concat, Or.inr rfl⟩
    · refine ⟨c, List.getLast?_eq_some_iff.2 ⟨whole ++ '.' :: front, by simp⟩, ?_⟩
      exact Or.inl (hfraction c (by simp))

/-- The sign of a decimal is the sign of its numeral. -/
theorem read?_append {sign unsigned : List Char} (hsign : IsSign sign)
    (hunsigned : IsUnsigned unsigned) :
    read? (sign ++ unsigned) = (readUnsigned? unsigned).map fun numeral =>
      { numeral with negative := decide (sign = ['-']) } := by
  simp only [read?, readSign_append hsign hunsigned.head_ne_sign]

/-- A decimal has one numeral, up to the sign before it. -/
theorem IsUnsigned.exists_read?_append {unsigned : List Char} (h : IsUnsigned unsigned) :
    ∃ n : Numeral, ∀ {sign : List Char}, IsSign sign →
      read? (sign ++ unsigned) = some { n with negative := decide (sign = ['-']) } := by
  obtain ⟨n, hn⟩ := h.exists_readUnsigned?
  refine ⟨n, fun hsign => ?_⟩
  rw [read?_append hsign h, hn]
  rfl

/-- **Exactly the decimals are read.** -/
theorem exists_read?_iff {s : List Char} : (∃ n, read? s = some n) ↔ IsDecimal s := by
  constructor
  · rintro ⟨n, hn⟩
    exact isDecimal_of_read? hn
  · rintro ⟨sign, unsigned, rfl, hsign, hunsigned⟩
    obtain ⟨n, hn⟩ := hunsigned.exists_read?_append
    exact ⟨_, hn hsign⟩

end Numeral

end ComplexFormula
