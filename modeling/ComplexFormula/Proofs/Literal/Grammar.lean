/-
# The grammar of literals

Which texts spell a complex number, and why any other text spells none. A literal is cut into
its two parts before the first sign that can begin the imaginary one.

* `Complex.IsLiteral` : the literals and their values;
* `Complex.splitParts?_eq_some_iff` : where a literal is cut;
* `Complex.ofBareLiteral_eq_ok_iff` : exactly the literals are read;
* `Complex.ofLiteral_iff_isLiteral` : the outcome for any text.
-/
import Mathlib.Data.List.Chain
import ComplexFormula.Proofs.Literal
import ComplexFormula.Proofs.Value

namespace ComplexFormula

open Numeral (IsDecimal IsUnsigned IsSign IsDigits IsExponent)

namespace Complex

/-! ## Where a literal is cut -/

/-- A text that cannot be cut: behind its first character, signs only follow exponent marks. -/
def Uncut (s : List Char) : Prop :=
  s.IsChain fun a b => b = '+' ∨ b = '-' → isExponentMark a = true

/-- The two parts of a text that is cut before the first sign that begins an imaginary part. -/
structure IsCut (real imaginary : List Char) : Prop where
  uncut : Uncut real
  last : ∃ c, real.getLast? = some c ∧ isExponentMark c = false
  sign : ∃ c rest, imaginary = c :: rest ∧ (c = '+' ∨ c = '-')

/-- A text that goes on without a sign stays uncut. -/
theorem Uncut.append {s t : List Char} (hs : Uncut s) (ht : Uncut t)
    (hhead : ∀ c ∈ t.head?, c ≠ '+' ∧ c ≠ '-') : Uncut (s ++ t) := by
  refine List.IsChain.append hs ht ?_
  intro a _ b hb hsign
  obtain ⟨hplus, hminus⟩ := hhead b hb
  rcases hsign with hsign | hsign
  · exact absurd hsign hplus
  · exact absurd hsign hminus

/-- A text without signs is uncut. -/
theorem uncut_of_forall {s : List Char} (h : ∀ c ∈ s, c ≠ '+' ∧ c ≠ '-') : Uncut s := by
  induction s with
  | nil => exact List.isChain_nil
  | cons c s ih =>
    have hs : Uncut s := ih fun x hx => h x (List.mem_cons_of_mem c hx)
    exact Uncut.append (List.isChain_singleton c) hs fun x hx =>
      h x (List.mem_cons_of_mem c (List.mem_of_mem_head? hx))

/-- The search for a cut, one character further. -/
theorem splitParts?_cons_cons (previous c : Char) (s : List Char) :
    splitParts? (previous :: c :: s) =
      if (c = '+' ∨ c = '-') ∧ isExponentMark previous = false then some ([previous], c :: s)
      else (splitParts? (c :: s)).map fun parts => (previous :: parts.1, parts.2) := by
  simp only [splitParts?, splitAfter?]
  by_cases hcut : (c = '+' ∨ c = '-') ∧ isExponentMark previous = false
  · simp [hcut]
  · rw [if_neg hcut, if_neg (by simpa using hcut)]

/-- What the search for a cut finds. -/
theorem splitParts?_spec (s : List Char) :
    (splitParts? s = none → Uncut s) ∧
      ∀ real imaginary, splitParts? s = some (real, imaginary) →
        real ++ imaginary = s ∧ IsCut real imaginary := by
  induction s with
  | nil => exact ⟨fun _ => List.isChain_nil, by simp [splitParts?]⟩
  | cons previous s ih =>
    cases s with
    | nil => exact ⟨fun _ => List.isChain_singleton previous, by simp [splitParts?, splitAfter?]⟩
    | cons c s =>
      rw [splitParts?_cons_cons]
      split
      · next hcut =>
        refine ⟨by simp, ?_⟩
        rintro real imaginary h
        obtain ⟨rfl, rfl⟩ := Prod.mk.inj (Option.some.inj h)
        exact ⟨rfl, List.isChain_singleton previous, ⟨previous, rfl, hcut.2⟩, ⟨c, s, rfl, hcut.1⟩⟩
      · next hcut =>
        -- no cut in front of the second character
        have hjoin : c = '+' ∨ c = '-' → isExponentMark previous = true := by
          intro hsign
          by_contra hmark
          exact hcut ⟨hsign, by simpa using hmark⟩
        constructor
        · intro h
          exact List.isChain_cons_cons.2 ⟨hjoin, ih.1 (Option.map_eq_none_iff.1 h)⟩
        · intro real imaginary h
          obtain ⟨⟨real', imaginary'⟩, hsplit, heq⟩ := Option.map_eq_some_iff.1 h
          obtain ⟨rfl, rfl⟩ := Prod.mk.inj heq
          obtain ⟨happend, huncut, ⟨last, hlast, hmark⟩, hsign⟩ := ih.2 real' imaginary' hsplit
          obtain ⟨x, real, rfl⟩ : ∃ x tail, real' = x :: tail :=
            List.exists_cons_of_ne_nil (by rintro rfl; simp at hlast)
          obtain rfl : x = c := (List.cons.inj happend).1
          refine ⟨by rw [List.cons_append, happend], ?_, ⟨last, ?_, hmark⟩, hsign⟩
          · exact List.isChain_cons_cons.2 ⟨hjoin, huncut⟩
          · rw [List.getLast?_cons_cons]
            exact hlast

/-- A text that is cut is not uncut. -/
theorem IsCut.not_uncut {real imaginary : List Char} (h : IsCut real imaginary) :
    ¬ Uncut (real ++ imaginary) := by
  intro huncut
  obtain ⟨last, hlast, hmark⟩ := h.last
  obtain ⟨c, rest, rfl, hsign⟩ := h.sign
  have hjoin := (List.isChain_append.1 huncut).2.2 last hlast c rfl hsign
  rw [hmark] at hjoin
  exact Bool.false_ne_true hjoin

/-- A text is cut at one place only. -/
theorem IsCut.unique {real imaginary real' imaginary' : List Char} (h : IsCut real imaginary)
    (h' : IsCut real' imaginary') (happend : real ++ imaginary = real' ++ imaginary') :
    real = real' ∧ imaginary = imaginary' := by
  -- neither of the real parts goes on where the other one ends
  have hends : ∀ {r m r' t}, IsCut r (t ++ m) → IsCut r' m → r' = r ++ t → t = [] := by
    intro r m r' t hr hr' heq
    cases t with
    | nil => rfl
    | cons x t =>
      obtain ⟨c, rest, hm, hsign⟩ := hr.sign
      have hcut : IsCut r (x :: t) := ⟨hr.uncut, hr.last, x, t, rfl, (List.cons.inj hm).1 ▸ hsign⟩
      exact absurd (heq ▸ hr'.uncut) hcut.not_uncut
  rcases List.append_eq_append_iff.1 happend with ⟨t, rfl, rfl⟩ | ⟨t, rfl, rfl⟩
  · obtain rfl := hends h h' rfl
    simp
  · obtain rfl := hends h' h rfl
    simp

/-- **A literal is cut before the first sign that begins an imaginary part.** -/
theorem splitParts?_eq_some_iff {s real imaginary : List Char} :
    splitParts? s = some (real, imaginary) ↔ real ++ imaginary = s ∧ IsCut real imaginary := by
  constructor
  · exact (splitParts?_spec s).2 real imaginary
  · rintro ⟨rfl, hcut⟩
    cases hsplit : splitParts? (real ++ imaginary) with
    | none => exact absurd ((splitParts?_spec _).1 hsplit) hcut.not_uncut
    | some parts =>
      obtain ⟨real', imaginary'⟩ := parts
      obtain ⟨happend, hcut'⟩ := (splitParts?_spec _).2 real' imaginary' hsplit
      obtain ⟨rfl, rfl⟩ := hcut'.unique hcut happend
      rfl

/-- A text has no parts if it is uncut. -/
theorem splitParts?_eq_none_iff {s : List Char} : splitParts? s = none ↔ Uncut s := by
  refine ⟨(splitParts?_spec s).1, fun huncut => ?_⟩
  cases hsplit : splitParts? s with
  | none => rfl
  | some parts =>
    obtain ⟨happend, hcut⟩ := (splitParts?_spec s).2 parts.1 parts.2 hsplit
    rw [← happend] at huncut
    exact absurd huncut hcut.not_uncut

/-! ## Decimals are uncut -/

/-- Digits are uncut. -/
theorem uncut_of_isDigits {digits : List Char} (h : IsDigits digits) : Uncut digits :=
  uncut_of_forall fun c hc => Numeral.ne_sign_of_isDigit (h c hc)

/-- A power of ten is uncut: its sign follows the exponent mark. -/
theorem uncut_of_isExponent {exponent : List Char} (h : IsExponent exponent) :
    Uncut exponent := by
  cases h with
  | none => exact List.isChain_nil
  | @power mark sign digits hmark hsign hne hdigits =>
    have hmark' : isExponentMark mark = true := by
      rcases hmark with rfl | rfl <;> rfl
    rcases hsign with rfl | rfl | rfl
    · exact (uncut_of_isDigits hdigits).cons fun c hc _ => hmark'
    · exact List.isChain_cons_cons.2 ⟨fun _ => hmark',
        Uncut.append (List.isChain_singleton '+') (uncut_of_isDigits hdigits)
          hdigits.head_ne_sign⟩
    · exact List.isChain_cons_cons.2 ⟨fun _ => hmark',
        Uncut.append (List.isChain_singleton '-') (uncut_of_isDigits hdigits)
          hdigits.head_ne_sign⟩

/-- A decimal without a sign is uncut. -/
theorem uncut_of_isUnsigned {s : List Char} (h : IsUnsigned s) : Uncut s := by
  cases h with
  | whole _ hdigits hexponent =>
    exact (uncut_of_isDigits hdigits).append (uncut_of_isExponent hexponent)
      hexponent.head_ne_sign
  | @point whole fraction exponent _ hwhole hfraction hexponent =>
    have hdigits : Uncut (whole ++ '.' :: fraction) := by
      refine uncut_of_forall fun c hc => ?_
      rcases List.mem_append.1 hc with hc | hc
      · exact Numeral.ne_sign_of_isDigit (hwhole c hc)
      · rcases List.mem_cons.1 hc with rfl | hc
        · decide
        · exact Numeral.ne_sign_of_isDigit (hfraction c hc)
    exact hdigits.append (uncut_of_isExponent hexponent) hexponent.head_ne_sign

/-- A sign alone is uncut. -/
theorem uncut_of_isSign {sign : List Char} (h : IsSign sign) : Uncut sign := by
  rcases h with rfl | rfl | rfl
  · exact List.isChain_nil
  · exact List.isChain_singleton '+'
  · exact List.isChain_singleton '-'

/-- **A decimal is uncut.** -/
theorem uncut_of_isDecimal {s : List Char} (h : IsDecimal s) : Uncut s := by
  obtain ⟨sign, unsigned, rfl, hsign, hunsigned⟩ := h
  exact (uncut_of_isSign hsign).append (uncut_of_isUnsigned hunsigned) hunsigned.head_ne_sign

/-- A decimal ends in no exponent mark. -/
theorem exists_getLast?_of_isDecimal {s : List Char} (h : IsDecimal s) :
    ∃ c, s.getLast? = some c ∧ isExponentMark c = false := by
  obtain ⟨sign, unsigned, rfl, -, hunsigned⟩ := h
  obtain ⟨c, hc, hend⟩ := hunsigned.exists_getLast?
  refine ⟨c, by rw [List.getLast?_append, hc]; rfl, ?_⟩
  rw [isExponentMark, Bool.or_eq_false_iff, beq_eq_false_iff_ne, beq_eq_false_iff_ne]
  rcases hend with hdigit | rfl
  · constructor
    · rintro rfl
      exact absurd hdigit (by decide)
    · rintro rfl
      exact absurd hdigit (by decide)
  · decide

/-- No sign is an imaginary unit. -/
theorem isUnitLetter_of_sign {sign : Char} (h : sign = '+' ∨ sign = '-') :
    isUnitLetter sign = false := by
  rcases h with rfl | rfl <;> decide

/-- A decimal is cut off before a sign. -/
theorem isCut_of_isDecimal {d : List Char} (hd : IsDecimal d) {sign : Char}
    (hsign : sign = '+' ∨ sign = '-') (rest : List Char) : IsCut d (sign :: rest) where
  uncut := uncut_of_isDecimal hd
  last := exists_getLast?_of_isDecimal hd
  sign := ⟨sign, rest, rfl, hsign⟩

/-- An imaginary unit does not cut a text. -/
theorem Uncut.append_unit {s : List Char} (hs : Uncut s) {x : Char} (hx : isUnitLetter x = true) :
    Uncut (s ++ [x]) := by
  refine hs.append (List.isChain_singleton x) fun c hc => ?_
  obtain rfl := Option.some.inj hc
  constructor
  · rintro rfl
    exact absurd hx (by decide)
  · rintro rfl
    exact absurd hx (by decide)

/-! ## The literals -/

/-- The coefficient that a lone sign, or none, gives to the imaginary unit. -/
def signedOne (sign : List Char) : Float := if sign = ['-'] then -1 else 1

/-- `IsLiteral s z`: the text `s`, without blanks, spells the number `z`. -/
inductive IsLiteral : List Char → Complex → Prop
  /-- A decimal alone. -/
  | real {d : List Char} {n : Numeral} (hd : IsDecimal d) (hn : Numeral.read? d = some n) :
      IsLiteral d ⟨n.toFloat, 0⟩
  /-- An imaginary unit with an optional sign. -/
  | unit {sign : List Char} {x : Char} (hsign : IsSign sign) (hx : isUnitLetter x = true) :
      IsLiteral (sign ++ [x]) ⟨0, signedOne sign⟩
  /-- A decimal and an imaginary unit. -/
  | imaginary {d : List Char} {n : Numeral} {x : Char} (hd : IsDecimal d)
      (hn : Numeral.read? d = some n) (hx : isUnitLetter x = true) :
      IsLiteral (d ++ [x]) ⟨0, n.toFloat⟩
  /-- A decimal, a sign and an imaginary unit. -/
  | mixedUnit {d : List Char} {n : Numeral} {sign x : Char} (hd : IsDecimal d)
      (hn : Numeral.read? d = some n) (hsign : sign = '+' ∨ sign = '-')
      (hx : isUnitLetter x = true) :
      IsLiteral (d ++ sign :: [x]) ⟨n.toFloat, signedOne [sign]⟩
  /-- A decimal, another one with its sign, and an imaginary unit. -/
  | mixed {d u : List Char} {n m : Numeral} {sign x : Char} (hd : IsDecimal d)
      (hn : Numeral.read? d = some n) (hsign : sign = '+' ∨ sign = '-') (hu : IsUnsigned u)
      (hm : Numeral.read? (sign :: u) = some m) (hx : isUnitLetter x = true) :
      IsLiteral (d ++ sign :: (u ++ [x])) ⟨n.toFloat, m.toFloat⟩

/-! ## Reading the parts -/

/-- A sign alone is no decimal. -/
theorem read?_of_isSign {s : List Char} (h : IsSign s) : Numeral.read? s = none := by
  rcases h with rfl | rfl | rfl <;> rfl

/-- Exactly the decimals are real parts. -/
theorem readReal_eq_ok_iff {s : List Char} {x : Float} :
    readReal s = .ok x ↔ ∃ n, Numeral.read? s = some n ∧ x = n.toFloat := by
  refine ⟨readReal_eq_ok, ?_⟩
  rintro ⟨n, hn, rfl⟩
  rw [readReal, readDecimal?_eq, hn]
  rfl

/-- An imaginary part is an imaginary unit behind a sign, which may be missing, or a decimal. -/
theorem readImaginary_concat_iff {s : List Char} {c : Char} {x : Float} :
    readImaginary (s ++ [c]) = .ok x ↔
      (IsSign s ∧ x = signedOne s) ∨ ∃ n, Numeral.read? s = some n ∧ x = n.toFloat := by
  constructor
  · intro h
    have hread := readImaginary_eq_ok h
    rw [List.dropLast_concat] at hread
    rcases hread with ⟨rfl, rfl⟩ | ⟨rfl, rfl⟩ | ⟨rfl, rfl⟩ | hn
    · exact Or.inl ⟨Or.inl rfl, rfl⟩
    · exact Or.inl ⟨Or.inr (Or.inl rfl), rfl⟩
    · exact Or.inl ⟨Or.inr (Or.inr rfl), rfl⟩
    · exact Or.inr hn
  · rintro (⟨hsign, rfl⟩ | ⟨n, hn, rfl⟩)
    · rcases hsign with rfl | rfl | rfl <;> rfl
    · unfold readImaginary
      rw [List.dropLast_concat]
      split
      · simp [read?_of_isSign (Or.inl rfl)] at hn
      · simp [read?_of_isSign (Or.inr (Or.inl rfl))] at hn
      · simp [read?_of_isSign (Or.inr (Or.inr rfl))] at hn
      · rw [readDecimal?_eq, hn]
        rfl

/-! ## Reading the whole -/

/-- Without an imaginary unit, a text is a real part. -/
theorem ofBareLiteral_of_forall {s : List Char} (hne : s ≠ [])
    (h : ∀ c ∈ s, isUnitLetter c = false) :
    ofBareLiteral s = (readReal s).map fun re => ⟨re, 0⟩ := by
  have hunit : s.any isUnitLetter = false := by
    rw [List.any_eq_false]
    intro c hc
    rw [h c hc]
    exact Bool.false_ne_true
  rw [ofBareLiteral, List.isEmpty_eq_false_iff.2 hne, hunit]
  rfl

/-- An imaginary unit has to stand at the end. -/
theorem ofBareLiteral_of_endsInUnit_eq_false {s : List Char}
    (h : ∃ c ∈ s, isUnitLetter c = true) (hend : endsInUnit s = false) :
    ofBareLiteral s = .error (.noSplit (String.ofList s)) := by
  obtain ⟨c, hc, hunit⟩ := h
  rw [ofBareLiteral, List.isEmpty_eq_false_iff.2 (List.ne_nil_of_mem hc),
    List.any_eq_true.2 ⟨c, hc, hunit⟩, hend]
  rfl

/-- A text that ends in an imaginary unit is not empty and has one. -/
theorem exists_isUnitLetter_of_endsInUnit {s : List Char} (h : endsInUnit s = true) :
    ∃ c ∈ s, isUnitLetter c = true := by
  obtain ⟨front, c, rfl, hc⟩ := endsInUnit_iff.1 h
  exact ⟨c, by simp, hc⟩

/-- An uncut text that ends in an imaginary unit is an imaginary part. -/
theorem ofBareLiteral_of_uncut {s : List Char} (hend : endsInUnit s = true) (hs : Uncut s) :
    ofBareLiteral s = (readImaginary s).map fun im => ⟨0, im⟩ := by
  obtain ⟨c, hc, hunit⟩ := exists_isUnitLetter_of_endsInUnit hend
  rw [ofBareLiteral, List.isEmpty_eq_false_iff.2 (List.ne_nil_of_mem hc),
    List.any_eq_true.2 ⟨c, hc, hunit⟩, hend, splitParts?_eq_none_iff.2 hs]
  rfl

/-- A text that is cut consists of a real and an imaginary part. -/
theorem ofBareLiteral_of_isCut {real imaginary : List Char}
    (hend : endsInUnit (real ++ imaginary) = true) (hcut : IsCut real imaginary) :
    ofBareLiteral (real ++ imaginary) =
      if real.any isUnitLetter then .error (.noSplit (String.ofList (real ++ imaginary)))
      else (readReal real).bind fun re => (readImaginary imaginary).map fun im => ⟨re, im⟩ := by
  obtain ⟨c, hc, hunit⟩ := exists_isUnitLetter_of_endsInUnit hend
  rw [ofBareLiteral, List.isEmpty_eq_false_iff.2 (List.ne_nil_of_mem hc),
    List.any_eq_true.2 ⟨c, hc, hunit⟩, hend, splitParts?_eq_some_iff.2 ⟨rfl, hcut⟩]
  rfl

/-- Every literal is read. -/
theorem ofBareLiteral_of_isLiteral {s : List Char} {z : Complex} (h : IsLiteral s z) :
    ofBareLiteral s = .ok z := by
  cases h with
  | real hd hn => exact ofBareLiteral_of_read? hn
  | @unit sign x hsign hx =>
    rw [ofBareLiteral_of_uncut (endsInUnit_iff.2 ⟨sign, x, rfl, hx⟩)
      ((uncut_of_isSign hsign).append_unit hx),
      readImaginary_concat_iff.2 (Or.inl ⟨hsign, rfl⟩)]
    rfl
  | @imaginary d n x hd hn hx =>
    rw [ofBareLiteral_of_uncut (endsInUnit_iff.2 ⟨d, x, rfl, hx⟩)
      ((uncut_of_isDecimal hd).append_unit hx),
      readImaginary_concat_iff.2 (Or.inr ⟨n, hn, rfl⟩)]
    rfl
  | @mixedUnit d n sign x hd hn hsign hx =>
    have hsign' : IsSign [sign] := by
      rcases hsign with rfl | rfl
      · exact Or.inr (Or.inl rfl)
      · exact Or.inr (Or.inr rfl)
    have him : readImaginary (sign :: [x]) = .ok (signedOne [sign]) :=
      (readImaginary_concat_iff (s := [sign])).2 (Or.inl ⟨hsign', rfl⟩)
    rw [ofBareLiteral_of_isCut (endsInUnit_iff.2 ⟨d ++ [sign], x, by simp, hx⟩)
      (isCut_of_isDecimal hd hsign [x]), any_isUnitLetter_of_isDecimal hd,
      readReal_eq_ok_iff.2 ⟨n, hn, rfl⟩, him]
    rfl
  | @mixed d u n m sign x hd hn hsign hu hm hx =>
    have him : readImaginary (sign :: (u ++ [x])) = .ok m.toFloat :=
      (readImaginary_concat_iff (s := sign :: u)).2 (Or.inr ⟨m, hm, rfl⟩)
    rw [ofBareLiteral_of_isCut (endsInUnit_iff.2 ⟨d ++ sign :: u, x, by simp, hx⟩)
      (isCut_of_isDecimal hd hsign (u ++ [x])), any_isUnitLetter_of_isDecimal hd,
      readReal_eq_ok_iff.2 ⟨n, hn, rfl⟩, him]
    rfl

/-- A decimal with a sign is a sign and a decimal without one. -/
theorem isUnsigned_of_isDecimal_cons {sign : Char} {u : List Char}
    (hsign : sign = '+' ∨ sign = '-') (h : IsDecimal (sign :: u)) : IsUnsigned u := by
  obtain ⟨sign', unsigned, heq, hsign', hunsigned⟩ := h
  rcases hsign' with rfl | rfl | rfl
  · -- a decimal without a sign does not begin with one
    rw [List.nil_append] at heq
    have hne := hunsigned.head_ne_sign sign (by rw [← heq]; rfl)
    rcases hsign with rfl | rfl
    · exact absurd rfl hne.1
    · exact absurd rfl hne.2
  · rwa [(List.cons.inj heq).2]
  · rwa [(List.cons.inj heq).2]

/-- Where a text ends in an imaginary unit, what stands behind a sign does. -/
theorem exists_unit_of_endsInUnit {real tail : List Char} {sign : Char}
    (hsign : sign = '+' ∨ sign = '-') (hend : endsInUnit (real ++ sign :: tail) = true) :
    ∃ u x, tail = u ++ [x] ∧ isUnitLetter x = true := by
  obtain ⟨front, x, heq, hx⟩ := endsInUnit_iff.1 hend
  have hlast := congrArg List.getLast? heq
  rw [List.getLast?_concat] at hlast
  rcases List.eq_nil_or_concat' tail with rfl | ⟨u, y, rfl⟩
  · -- the sign itself would be the unit
    rw [List.getLast?_concat] at hlast
    obtain rfl := Option.some.inj hlast
    rw [isUnitLetter_of_sign hsign] at hx
    exact absurd hx Bool.false_ne_true
  · rw [← List.cons_append, ← List.append_assoc, List.getLast?_concat] at hlast
    exact ⟨u, y, rfl, Option.some.inj hlast ▸ hx⟩

/-- Only literals are read. -/
theorem isLiteral_of_ofBareLiteral {s : List Char} {z : Complex} (h : ofBareLiteral s = .ok z) :
    IsLiteral s z := by
  cases hend : endsInUnit s with
  | false =>
    by_cases hunit : ∃ c ∈ s, isUnitLetter c = true
    · rw [ofBareLiteral_of_endsInUnit_eq_false hunit hend] at h
      simp at h
    · have hforall : ∀ c ∈ s, isUnitLetter c = false := by
        intro c hc
        rw [← Bool.not_eq_true]
        exact fun hc' => hunit ⟨c, hc, hc'⟩
      rw [ofBareLiteral_of_forall (ne_nil_of_ofBareLiteral h) hforall, map_eq_ok_iff] at h
      obtain ⟨re, hre, rfl⟩ := h
      obtain ⟨n, hn, rfl⟩ := readReal_eq_ok_iff.1 hre
      exact IsLiteral.real (Numeral.isDecimal_of_read? hn) hn
  | true =>
    cases hsplit : splitParts? s with
    | none =>
      rw [ofBareLiteral_of_uncut hend (splitParts?_eq_none_iff.1 hsplit), map_eq_ok_iff] at h
      obtain ⟨im, him, rfl⟩ := h
      obtain ⟨front, x, rfl, hx⟩ := endsInUnit_iff.1 hend
      rcases readImaginary_concat_iff.1 him with ⟨hsign, rfl⟩ | ⟨n, hn, rfl⟩
      · exact IsLiteral.unit hsign hx
      · exact IsLiteral.imaginary (Numeral.isDecimal_of_read? hn) hn hx
    | some parts =>
      obtain ⟨real, imaginary⟩ := parts
      obtain ⟨rfl, hcut⟩ := splitParts?_eq_some_iff.1 hsplit
      rw [ofBareLiteral_of_isCut hend hcut] at h
      split at h
      · simp at h
      · rw [bind_eq_ok_iff] at h
        obtain ⟨re, hre, hmap⟩ := h
        obtain ⟨im, him, rfl⟩ := map_eq_ok_iff.1 hmap
        obtain ⟨n, hn, rfl⟩ := readReal_eq_ok_iff.1 hre
        have hd := Numeral.isDecimal_of_read? hn
        obtain ⟨sign, tail, rfl, hsign⟩ := hcut.sign
        obtain ⟨u, x, rfl, hx⟩ := exists_unit_of_endsInUnit hsign hend
        rcases (readImaginary_concat_iff (s := sign :: u)).1 him with ⟨hsign', rfl⟩ | ⟨m, hm, rfl⟩
        · obtain rfl : u = [] := by
            rcases hsign' with h' | h' | h' <;> simp_all
          exact IsLiteral.mixedUnit hd hn hsign hx
        · exact IsLiteral.mixed hd hn hsign
            (isUnsigned_of_isDecimal_cons hsign (Numeral.isDecimal_of_read? hm)) hm hx

/-- **Exactly the literals are read.** -/
theorem ofBareLiteral_eq_ok_iff {s : List Char} {z : Complex} :
    ofBareLiteral s = .ok z ↔ IsLiteral s z :=
  ⟨isLiteral_of_ofBareLiteral, ofBareLiteral_of_isLiteral⟩

/-! ## Texts that are no literal -/

/-- There is an imaginary unit where none can stand: it is not at the end, or in front of the
sign that begins the imaginary part. -/
def LacksSplit (s : List Char) : Prop :=
  (∃ c ∈ s, isUnitLetter c = true) ∧
    (endsInUnit s = false ∨
      ∃ real imaginary, real ++ imaginary = s ∧ IsCut real imaginary ∧
        ∃ c ∈ real, isUnitLetter c = true)

/-- A real part that is refused is a bad component. -/
theorem readReal_eq_error {s : List Char} {reason : LiteralError}
    (h : readReal s = .error reason) : reason = .badComponent (String.ofList s) := by
  unfold readReal at h
  split at h
  · simp at h
  · exact (Except.error.inj h).symm

/-- An imaginary part that is refused is a bad component. -/
theorem readImaginary_eq_error {s : List Char} {reason : LiteralError}
    (h : readImaginary s = .error reason) : reason = .badComponent (String.ofList s) := by
  unfold readImaginary at h
  split at h
  · simp at h
  · simp at h
  · simp at h
  · split at h
    · simp at h
    · exact (Except.error.inj h).symm

/-- An empty text is refused as such. -/
theorem ofBareLiteral_nil : ofBareLiteral [] = .error .empty := rfl

/-- The outcomes of reading a text that is not empty: a literal, an imaginary unit where none
can stand, or a bad component. -/
theorem ofBareLiteral_trichotomy {s : List Char} (hne : s ≠ []) :
    (∃ z, ofBareLiteral s = .ok z ∧ ¬ LacksSplit s) ∨
      (ofBareLiteral s = .error (.noSplit (String.ofList s)) ∧ LacksSplit s) ∨
      ∃ text, ofBareLiteral s = .error (.badComponent text) ∧ ¬ LacksSplit s := by
  cases hend : endsInUnit s with
  | false =>
    by_cases hunit : ∃ c ∈ s, isUnitLetter c = true
    · exact Or.inr (Or.inl ⟨ofBareLiteral_of_endsInUnit_eq_false hunit hend, hunit, Or.inl hend⟩)
    · have hlacks : ¬ LacksSplit s := fun h => hunit h.1
      rw [ofBareLiteral_of_forall hne (by simpa using hunit)]
      cases hre : readReal s with
      | ok re => exact Or.inl ⟨_, rfl, hlacks⟩
      | error reason =>
        obtain rfl := readReal_eq_error hre
        exact Or.inr (Or.inr ⟨_, rfl, hlacks⟩)
  | true =>
    cases hsplit : splitParts? s with
    | none =>
      have huncut := splitParts?_eq_none_iff.1 hsplit
      have hlacks : ¬ LacksSplit s := by
        rintro ⟨-, hend' | ⟨real, imaginary, rfl, hcut, -⟩⟩
        · rw [hend] at hend'
          exact absurd hend' (by decide)
        · exact hcut.not_uncut huncut
      rw [ofBareLiteral_of_uncut hend huncut]
      cases him : readImaginary s with
      | ok im => exact Or.inl ⟨_, rfl, hlacks⟩
      | error reason =>
        obtain rfl := readImaginary_eq_error him
        exact Or.inr (Or.inr ⟨_, rfl, hlacks⟩)
    | some parts =>
      obtain ⟨real, imaginary⟩ := parts
      obtain ⟨rfl, hcut⟩ := splitParts?_eq_some_iff.1 hsplit
      rw [ofBareLiteral_of_isCut hend hcut]
      split
      · next hunit =>
        refine Or.inr (Or.inl ⟨rfl, exists_isUnitLetter_of_endsInUnit hend, Or.inr ?_⟩)
        exact ⟨real, imaginary, rfl, hcut, List.any_eq_true.1 hunit⟩
      · next hunit =>
        have hlacks : ¬ LacksSplit (real ++ imaginary) := by
          rintro ⟨-, hend' | ⟨real', imaginary', happend, hcut', hunit'⟩⟩
          · rw [hend] at hend'
            exact absurd hend' (by decide)
          · obtain ⟨rfl, rfl⟩ := hcut'.unique hcut happend
            exact hunit (List.any_eq_true.2 hunit')
        cases hre : readReal real with
        | error reason =>
          obtain rfl := readReal_eq_error hre
          exact Or.inr (Or.inr ⟨_, rfl, hlacks⟩)
        | ok re =>
          cases him : readImaginary imaginary with
          | ok im => exact Or.inl ⟨_, rfl, hlacks⟩
          | error reason =>
            obtain rfl := readImaginary_eq_error him
            exact Or.inr (Or.inr ⟨_, rfl, hlacks⟩)

/-- **Reading a literal.** Exactly the decimals are read as numerals, and of all the texts that
spell floats exactly the decimals are read as parts; and exactly the literals are read as complex
numbers, with their values. An empty text is refused as such, one with an imaginary
unit where none can stand for lack of a place to cut it, and any other for a bad component. -/
theorem ofLiteral_iff_isLiteral (text : String) :
    (∀ s, (∃ n, Numeral.read? s = some n) ↔ IsDecimal s) ∧
    (∀ s x, readDecimal? s = some x ↔ IsDecimal s ∧ floatOfText? s = some x) ∧
    (∀ z, ofLiteral text = .ok z ↔ IsLiteral (withoutBlanks text.toList) z) ∧
    (ofLiteral text = .error .empty ↔ withoutBlanks text.toList = []) ∧
    (∀ shown, ofLiteral text = .error (.noSplit shown) ↔
      shown = String.ofList (withoutBlanks text.toList) ∧
        LacksSplit (withoutBlanks text.toList)) ∧
    ((∃ shown, ofLiteral text = .error (.badComponent shown)) ↔
      withoutBlanks text.toList ≠ [] ∧ ¬ LacksSplit (withoutBlanks text.toList) ∧
        ∀ z, ¬ IsLiteral (withoutBlanks text.toList) z) := by
  refine ⟨fun _ => Numeral.exists_read?_iff, fun _ _ => readDecimal?_eq_some_iff,
    fun _ => ofBareLiteral_eq_ok_iff, ?_⟩
  rw [ofLiteral]
  by_cases hne : withoutBlanks text.toList = []
  · rw [hne, ofBareLiteral_nil]
    simp [LacksSplit]
  · simp only [← ofBareLiteral_eq_ok_iff]
    rcases ofBareLiteral_trichotomy hne with ⟨z, h, hlacks⟩ | ⟨h, hlacks⟩ | ⟨shown, h, hlacks⟩
    · simp [h, hne, hlacks]
    · simp [h, hne, hlacks, eq_comm]
    · simp [h, hne, hlacks]

end Complex
end ComplexFormula
