/-
# The characters of literals

* `Complex.isLiteralChar_of_ofBareLiteral` : the characters that a literal can have;
* `Complex.eq_unit_of_ofBareLiteral` : of letters alone, only the imaginary unit is a literal;
* `Complex.ofBareLiteral_of_read?` : a decimal is the literal of its value.
-/
import ComplexFormula.Complex.Literal
import ComplexFormula.Proofs.Decimal
import ComplexFormula.Proofs.Letter

namespace ComplexFormula

namespace Complex

/-! ## The parts of a literal -/

/-- A text is cut in two without a loss, and the second part is not empty. -/
theorem splitAfter?_eq_some {s : List Char} :
    ∀ {previous : Char} {front back : List Char},
      splitAfter? previous s = some (front, back) → front ++ back = s ∧ back ≠ [] := by
  induction s with
  | nil => intro previous front back h; simp [splitAfter?] at h
  | cons c s ih =>
    intro previous front back h
    unfold splitAfter? at h
    split at h
    · simp only [Option.some.injEq, Prod.mk.injEq] at h
      obtain ⟨rfl, rfl⟩ := h
      exact ⟨rfl, List.cons_ne_nil c s⟩
    · simp only [Option.map_eq_some_iff, Prod.mk.injEq] at h
      obtain ⟨⟨front', back'⟩, hsplit, rfl, rfl⟩ := h
      obtain ⟨happend, hne⟩ := ih hsplit
      exact ⟨by rw [List.cons_append, happend], hne⟩

/-- The parts of a literal are the literal, and there is an imaginary part. -/
theorem splitParts?_eq_some {s real imaginary : List Char}
    (h : splitParts? s = some (real, imaginary)) :
    real ++ imaginary = s ∧ imaginary ≠ [] := by
  unfold splitParts? at h
  split at h
  · simp at h
  · simp only [Option.map_eq_some_iff, Prod.mk.injEq] at h
    obtain ⟨⟨front, back⟩, hsplit, rfl, rfl⟩ := h
    obtain ⟨happend, hne⟩ := splitAfter?_eq_some hsplit
    exact ⟨by rw [List.cons_append, happend], hne⟩

/-- No word is made of the characters of decimals: all of them have an `n`. -/
theorem ofWord?_of_isDecimalChar {word : List Char}
    (h : ∀ c ∈ word, Numeral.isDecimalChar c = true) (negative : Bool) :
    Double.ofWord? negative word = none := by
  have hn : ∀ c ∈ word, c.toLower ≠ 'n' := by
    intro c hc
    have hclass := h c hc
    simp only [Numeral.isDecimalChar, Bool.or_eq_true, beq_iff_eq] at hclass
    rcases hclass with ((((hdigit | rfl) | rfl) | rfl) | rfl) | rfl
    · have hlower : c.toLower = c := dif_neg (of_decide_eq_false (isUpper_of_isDigit hdigit))
      rw [hlower]
      rintro rfl
      exact absurd hdigit (by decide)
    all_goals decide
  have hspelled : ∀ letters : String, 'n' ∈ letters.toList →
      String.ofList (word.map Char.toLower) ≠ letters := by
    rintro _ hmem rfl
    rw [String.toList_ofList] at hmem
    obtain ⟨c, hc, hlower⟩ := List.mem_map.1 hmem
    exact hn c hc hlower
  rw [Double.ofWord?, if_neg, if_neg]
  · exact hspelled "nan" (by decide)
  · exact not_or.2 ⟨hspelled "inf" (by decide), hspelled "infinity" (by decide)⟩

/-- A text of such characters spells a float only as a numeral. -/
theorem floatOfText?_of_isDecimalChar {s : List Char}
    (h : ∀ c ∈ s, Numeral.isDecimalChar c = true) :
    floatOfText? s = (Numeral.read? s).map Numeral.toFloat := by
  unfold floatOfText?
  cases Numeral.read? s with
  | some n => rfl
  | none =>
    obtain ⟨sign, -, hs⟩ := Numeral.isSign_readSign s
    have hword : ∀ c ∈ (Numeral.readSign s).2, Numeral.isDecimalChar c = true := by
      intro c hc
      refine h c ?_
      rw [hs]
      exact List.mem_append_right sign hc
    show Option.map _ (Double.ofWord? (Numeral.readSign s).1 (Numeral.readSign s).2) = none
    rw [ofWord?_of_isDecimalChar hword, Option.map_none]

/-- **Exactly the decimals are read**, as the floats of their numerals. -/
theorem readDecimal?_eq (s : List Char) :
    readDecimal? s = (Numeral.read? s).map Numeral.toFloat := by
  unfold readDecimal?
  split
  · next hfiltered =>
    -- what does not pass the filter is no decimal
    cases hread : Numeral.read? s with
    | some n =>
      have hdecimal := Numeral.isDecimal_of_read? hread
      have hchars : s.all Numeral.isDecimalChar = true :=
        List.all_eq_true.2 hdecimal.isDecimalChar
      have hdigit : s.any Char.isDigit = true := List.any_eq_true.2 hdecimal.exists_isDigit
      simp [hchars, hdigit] at hfiltered
    | none => rfl
  · next hpassed =>
    rw [Bool.or_eq_true, not_or, Bool.not_eq_true', Bool.not_eq_false] at hpassed
    exact floatOfText?_of_isDecimalChar (List.all_eq_true.1 hpassed.1)

/-- A text is read as a decimal if it is one, and then it is read as a float. -/
theorem readDecimal?_eq_some_iff {s : List Char} {x : Float} :
    readDecimal? s = some x ↔ Numeral.IsDecimal s ∧ floatOfText? s = some x := by
  rw [readDecimal?_eq, floatOfText?, ← Numeral.exists_read?_iff]
  cases Numeral.read? s with
  | some n => simp
  | none => simp

/-- A real part is a decimal. -/
theorem readReal_eq_ok {s : List Char} {x : Float} (h : readReal s = .ok x) :
    ∃ n, Numeral.read? s = some n ∧ x = n.toFloat := by
  rw [readReal, readDecimal?_eq] at h
  cases hn : Numeral.read? s with
  | some n =>
    rw [hn] at h
    exact ⟨n, rfl, (Except.ok.inj h).symm⟩
  | none => simp [hn] at h

/-- The coefficient of an imaginary part is a sign that may be missing, or a decimal. -/
theorem readImaginary_eq_ok {s : List Char} {x : Float} (h : readImaginary s = .ok x) :
    (s.dropLast = [] ∧ x = 1) ∨ (s.dropLast = ['+'] ∧ x = 1) ∨
      (s.dropLast = ['-'] ∧ x = -1) ∨
      ∃ n, Numeral.read? s.dropLast = some n ∧ x = n.toFloat := by
  unfold readImaginary at h
  split at h
  · next hs => exact Or.inl ⟨hs, (Except.ok.inj h).symm⟩
  · next hs => exact Or.inr (Or.inl ⟨hs, (Except.ok.inj h).symm⟩)
  · next hs => exact Or.inr (Or.inr (Or.inl ⟨hs, (Except.ok.inj h).symm⟩))
  · rw [readDecimal?_eq] at h
    cases hn : Numeral.read? s.dropLast with
    | some n =>
      rw [hn] at h
      exact Or.inr (Or.inr (Or.inr ⟨n, rfl, (Except.ok.inj h).symm⟩))
    | none => simp [hn] at h

/-- The three shapes of a literal: a decimal, an imaginary part, or both. -/
theorem ofBareLiteral_eq_ok {s : List Char} {z : Complex} (h : ofBareLiteral s = .ok z) :
    (∃ n, Numeral.read? s = some n ∧ z = ⟨n.toFloat, 0⟩) ∨
      endsInUnit s = true ∧
        ((∃ im, readImaginary s = .ok im ∧ z = ⟨0, im⟩) ∨
          ∃ real imaginary n im, real ++ imaginary = s ∧ imaginary ≠ [] ∧
            Numeral.read? real = some n ∧ readImaginary imaginary = .ok im ∧
            z = ⟨n.toFloat, im⟩) := by
  unfold ofBareLiteral at h
  split at h
  · simp at h
  · split at h
    · cases hre : readReal s with
      | error reason => simp [hre, bind, Except.bind] at h
      | ok re =>
        simp only [hre, bind, Except.bind, pure, Except.pure, Except.ok.injEq] at h
        obtain ⟨n, hn, rfl⟩ := readReal_eq_ok hre
        exact Or.inl ⟨n, hn, h.symm⟩
    · split at h
      · simp at h
      · next hunit =>
        simp only [Bool.not_eq_true, Bool.not_eq_false'] at hunit
        refine Or.inr ⟨hunit, ?_⟩
        split at h
        · cases him : readImaginary s with
          | error reason => simp [him, bind, Except.bind] at h
          | ok im =>
            simp only [him, bind, Except.bind, pure, Except.pure, Except.ok.injEq] at h
            exact Or.inl ⟨im, rfl, h.symm⟩
        · next real imaginary hsplit =>
          obtain ⟨happend, hne⟩ := splitParts?_eq_some hsplit
          split at h
          · simp at h
          · cases hre : readReal real with
            | error reason => simp [hre, bind, Except.bind] at h
            | ok re =>
              cases him : readImaginary imaginary with
              | error reason => simp [hre, him, bind, Except.bind] at h
              | ok im =>
                simp only [hre, him, bind, Except.bind, pure, Except.pure,
                  Except.ok.injEq] at h
                obtain ⟨n, hn, rfl⟩ := readReal_eq_ok hre
                exact Or.inr ⟨real, imaginary, n, im, happend, hne, hn, him, h.symm⟩

/-! ## The characters of a literal -/

/-- The imaginary unit has two spellings. -/
theorem isUnitLetter_iff {c : Char} : isUnitLetter c = true ↔ c = 'i' ∨ c = 'I' := by
  rw [isUnitLetter, Bool.or_eq_true, beq_iff_eq, beq_iff_eq]

/-- The mark of an exponent has two spellings. -/
theorem isExponentMark_iff {c : Char} : isExponentMark c = true ↔ c = 'e' ∨ c = 'E' := by
  rw [isExponentMark, Bool.or_eq_true, beq_iff_eq, beq_iff_eq]

/-- The characters of literals. -/
def isLiteralChar (c : Char) : Bool := Numeral.isDecimalChar c || isUnitLetter c

/-- A text that ends in the imaginary unit. -/
theorem endsInUnit_iff {s : List Char} :
    endsInUnit s = true ↔ ∃ front c, s = front ++ [c] ∧ isUnitLetter c = true := by
  unfold endsInUnit
  constructor
  · intro h
    cases hlast : s.getLast? with
    | none => simp [hlast] at h
    | some c =>
      obtain ⟨front, rfl⟩ := List.getLast?_eq_some_iff.1 hlast
      exact ⟨front, c, rfl, by simpa using h⟩
  · rintro ⟨front, c, rfl, hc⟩
    simpa using hc

/-- The coefficient of an imaginary part has only characters of decimals. -/
theorem isDecimalChar_of_readImaginary {s : List Char} {x : Float}
    (h : readImaginary s = .ok x) : ∀ c ∈ s.dropLast, Numeral.isDecimalChar c = true := by
  rcases readImaginary_eq_ok h with ⟨hs, -⟩ | ⟨hs, -⟩ | ⟨hs, -⟩ | ⟨n, hn, -⟩
  · simp [hs]
  · simp [hs, Numeral.isDecimalChar]
  · simp [hs, Numeral.isDecimalChar]
  · exact (Numeral.isDecimal_of_read? hn).isDecimalChar

/-- A literal has only characters of literals. -/
theorem isLiteralChar_of_ofBareLiteral {s : List Char} {z : Complex}
    (h : ofBareLiteral s = .ok z) : ∀ c ∈ s, isLiteralChar c = true := by
  intro c hc
  rcases ofBareLiteral_eq_ok h with ⟨n, hn, -⟩ | ⟨hunit, hparts⟩
  · rw [isLiteralChar, (Numeral.isDecimal_of_read? hn).isDecimalChar c hc, Bool.true_or]
  · obtain ⟨front, last, rfl, hlast⟩ := endsInUnit_iff.1 hunit
    rcases List.mem_append.1 hc with hc | hc
    · suffices hdecimal : Numeral.isDecimalChar c = true by
        rw [isLiteralChar, hdecimal, Bool.true_or]
      rcases hparts with ⟨im, him, -⟩ | ⟨real, imaginary, n, im, happend, hne, hn, him, -⟩
      · exact isDecimalChar_of_readImaginary him c (by simpa using hc)
      · -- the last character belongs to the imaginary part
        have hfront : front = real ++ imaginary.dropLast := by
          have := congrArg List.dropLast happend
          rw [List.dropLast_append_of_ne_nil hne, List.dropLast_concat] at this
          exact this.symm
        rw [hfront] at hc
        rcases List.mem_append.1 hc with hc | hc
        · exact (Numeral.isDecimal_of_read? hn).isDecimalChar c hc
        · exact isDecimalChar_of_readImaginary him c hc
    · rw [List.mem_singleton.1 hc, isLiteralChar, hlast, Bool.or_true]

/-- A literal is not empty. -/
theorem ne_nil_of_ofBareLiteral {s : List Char} {z : Complex}
    (h : ofBareLiteral s = .ok z) : s ≠ [] := by
  rintro rfl
  simp [ofBareLiteral] at h

/-- Of letters alone, only the imaginary unit is a literal. -/
theorem eq_unit_of_ofBareLiteral {s : List Char} {z : Complex}
    (h : ofBareLiteral s = .ok z) (hletters : ∀ c ∈ s, isLetter c = true) :
    z = unit ∧ (s = ['i'] ∨ s = ['I']) := by
  -- letters leave no room for a digit, and so none for a decimal
  have hdecimal : ∀ t ⊆ s, ∀ n, Numeral.read? t ≠ some n := by
    intro t ht n hn
    obtain ⟨c, hc, hdigit⟩ := (Numeral.isDecimal_of_read? hn).exists_isDigit
    have hletter := hletters c (ht hc)
    rw [isLetter_of_isDigit hdigit] at hletter
    exact Bool.false_ne_true hletter
  rcases ofBareLiteral_eq_ok h with ⟨n, hn, -⟩ | ⟨hunit, hparts⟩
  · exact absurd hn (hdecimal s (List.Subset.refl s) n)
  · rcases hparts with ⟨im, him, rfl⟩ | ⟨real, imaginary, n, im, happend, -, hn, -, -⟩
    · obtain ⟨front, last, rfl, hlast⟩ := endsInUnit_iff.1 hunit
      have hsign : ∀ c, isLetter c = false → front ≠ [c] := by
        rintro c hc rfl
        simpa [hc] using hletters c (by simp)
      have hread := readImaginary_eq_ok him
      rw [List.dropLast_concat] at hread
      rcases hread with ⟨rfl, rfl⟩ | ⟨hfront, -⟩ | ⟨hfront, -⟩ | ⟨n, hn, -⟩
      · refine ⟨rfl, ?_⟩
        simpa [isUnitLetter] using hlast
      · exact absurd hfront (hsign '+' (by decide))
      · exact absurd hfront (hsign '-' (by decide))
      · exact absurd hn (hdecimal front (by simp) n)
    · refine absurd hn (hdecimal real ?_ n)
      rw [← happend]
      exact List.subset_append_left real imaginary

/-- No character of a decimal is an imaginary unit. -/
theorem isUnitLetter_of_isDecimal {d : List Char} (h : Numeral.IsDecimal d) :
    ∀ c ∈ d, isUnitLetter c = false := by
  intro c hc
  have hchar := h.isDecimalChar c hc
  rw [← Bool.not_eq_true, isUnitLetter_iff]
  rintro (rfl | rfl)
  · exact absurd hchar (by decide)
  · exact absurd hchar (by decide)

/-- A decimal has no imaginary unit. -/
theorem any_isUnitLetter_of_isDecimal {d : List Char} (h : Numeral.IsDecimal d) :
    d.any isUnitLetter = false := by
  rw [List.any_eq_false]
  intro c hc
  rw [isUnitLetter_of_isDecimal h c hc]
  exact Bool.false_ne_true

/-- A decimal is the literal of its value. -/
theorem ofBareLiteral_of_read? {s : List Char} {n : Numeral} (h : Numeral.read? s = some n) :
    ofBareLiteral s = .ok ⟨n.toFloat, 0⟩ := by
  have hdecimal := Numeral.isDecimal_of_read? h
  have hne : s.isEmpty = false := by
    obtain ⟨c, hc, -⟩ := hdecimal.exists_isDigit
    cases s with
    | nil => simp at hc
    | cons => rfl
  unfold ofBareLiteral
  rw [hne, any_isUnitLetter_of_isDecimal hdecimal]
  simp [readReal, readDecimal?_eq, h, bind, Except.bind, pure, Except.pure]

end Complex

end ComplexFormula
