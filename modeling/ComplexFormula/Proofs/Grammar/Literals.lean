/-
# Literals as formulas

Where a literal is a formula as well, outside of parentheses, the two ways of reading it
agree: the number that it spells is worth as much as the formula.

* `Derives.neighbours` : which characters may follow each other in a formula without
  parentheses;
* `Agrees` : the worth of complex numbers, part by part;
* `agrees_of_isLiteral` : the two values agree.
-/
import ComplexFormula.Proofs.Evaluation
import ComplexFormula.Proofs.Float
import ComplexFormula.Proofs.Literal.Grammar

namespace ComplexFormula

/-! ## Neighbours -/

/-- Whether one character may follow another one: no letter follows a numeral, and no mark of
a product an operator. -/
def Adjoins (a b : Char) : Prop :=
  (Reader.isNumeralChar a = true → isLetter b = false) ∧
    (BinaryOperator.ofChar? a ≠ none → b ≠ invisibleTimes)

/-- The texts of formulas without parentheses: their neighbours, and where they begin and
end. -/
structure Neighbours (p : List Char) : Prop where
  isChain : p.IsChain Adjoins
  head : ∀ c ∈ p.head?, c ≠ '+' ∧ c ≠ invisibleTimes
  last : ∀ c ∈ p.getLast?, BinaryOperator.ofChar? c = none

/-- A character that is neither of a numeral nor an operator may be followed by any other. -/
theorem Adjoins.of_neither {a : Char} (hnumeral : Reader.isNumeralChar a = false)
    (hop : BinaryOperator.ofChar? a = none) (b : Char) : Adjoins a b := by
  refine ⟨fun h => ?_, fun h => absurd hop h⟩
  rw [hnumeral] at h
  exact absurd h Bool.false_ne_true

/-- A letter is no character of numerals. -/
theorem isNumeralChar_of_isLetter {c : Char} (hc : isLetter c = true) :
    Reader.isNumeralChar c = false := by
  rw [← Bool.not_eq_true]
  intro h
  rw [isLetter_of_isNumeralChar h] at hc
  exact absurd hc Bool.false_ne_true

/-- A class of characters whose members may follow each other. -/
theorem isChain_of_forall {p : List Char} (h : ∀ a ∈ p, ∀ b ∈ p, Adjoins a b) :
    p.IsChain Adjoins := by
  induction p with
  | nil => exact List.isChain_nil
  | cons a p ih =>
    refine List.isChain_cons.2 ⟨fun b hb => ?_, ih fun x hx y hy => ?_⟩
    · exact h a List.mem_cons_self b (List.mem_cons_of_mem a (List.mem_of_mem_head? hb))
    · exact h x (List.mem_cons_of_mem a hx) y (List.mem_cons_of_mem a hy)

namespace Neighbours

/-- An operator between two formulas. -/
theorem chain {p q : List Char} {c : Char} {op : BinaryOperator} (hp : Neighbours p)
    (hne : p ≠ []) (hop : BinaryOperator.ofChar? c = some op) (hq : Neighbours q)
    (hqne : q ≠ []) : Neighbours (p ++ c :: q) where
  isChain := by
    refine List.IsChain.append hp.isChain (List.isChain_cons.2 ⟨fun b hb => ?_, hq.isChain⟩) ?_
    · refine ⟨fun h => ?_, fun _ => (hq.head b hb).2⟩
      rw [isNumeralChar_of_ofChar? hop] at h
      exact absurd h Bool.false_ne_true
    · intro a ha b hb
      obtain rfl := Option.some.inj hb
      exact ⟨fun _ => BinaryOperator.isLetter_of_ofChar? hop, fun h => absurd (hp.last a ha) h⟩
  head := by
    obtain ⟨x, p, rfl⟩ := List.exists_cons_of_ne_nil hne
    exact hp.head
  last := by
    obtain ⟨front, x, rfl⟩ := (List.eq_nil_or_concat' q).resolve_left hqne
    intro b hb
    refine hq.last b ?_
    rw [List.getLast?_concat]
    rwa [← List.cons_append, ← List.append_assoc, List.getLast?_concat] at hb

/-- A sign of a root or a minus before a formula. -/
theorem cons {p : List Char} {c : Char} (hp : Neighbours p) (hne : p ≠ [])
    (hc : Reader.isNumeralChar c = false ∧ c ≠ '+' ∧ c ≠ invisibleTimes) :
    Neighbours (c :: p) where
  isChain := by
    refine List.isChain_cons.2 ⟨fun b hb => ⟨fun h => ?_, fun _ => (hp.head b hb).2⟩, hp.isChain⟩
    rw [hc.1] at h
    exact absurd h Bool.false_ne_true
  head b hb := by
    obtain rfl := Option.some.inj hb
    exact hc.2
  last := by
    obtain ⟨x, p, rfl⟩ := List.exists_cons_of_ne_nil hne
    rw [List.getLast?_cons_cons]
    exact hp.last

/-- A name. -/
theorem of_isLetter {p : List Char} (h : ∀ c ∈ p, isLetter c = true) : Neighbours p where
  isChain := isChain_of_forall fun a ha b _ =>
    Adjoins.of_neither (isNumeralChar_of_isLetter (h a ha)) (ofChar?_of_isLetter (h a ha)) b
  head c hc := by
    have hletter := h c (List.mem_of_mem_head? hc)
    constructor
    · rintro rfl
      exact absurd hletter (by decide)
    · rintro rfl
      rw [isLetter_invisibleTimes] at hletter
      exact absurd hletter Bool.false_ne_true
  last c hc := ofChar?_of_isLetter (h c (List.mem_of_getLast? hc))

/-- A numeral. -/
theorem of_isNumeralChar {p : List Char} (h : ∀ c ∈ p, Reader.isNumeralChar c = true) :
    Neighbours p where
  isChain := isChain_of_forall fun a ha b hb =>
    ⟨fun _ => isLetter_of_isNumeralChar (h b hb),
      fun hop => absurd (ofChar?_of_isNumeralChar (h a ha)) hop⟩
  head c hc := by
    have hchar := h c (List.mem_of_mem_head? hc)
    constructor
    · rintro rfl
      exact absurd hchar (by decide)
    · rintro rfl
      exact absurd hchar (by decide)
  last c hc := ofChar?_of_isNumeralChar (h c (List.mem_of_getLast? hc))

end Neighbours

/-- **The neighbours in a formula without parentheses.** -/
theorem Derives.neighbours {dialect : Dialect} {X : Precedence} {depth : Nat} {f : Formula}
    {s rest : List Char} (h : Derives dialect X depth f s rest) (hs : '(' ∉ s) :
    ∃ p, s = p ++ rest ∧ p ≠ [] ∧ Neighbours p := by
  induction h with
  | operand hX h ih => exact ih hs
  | chain hX hleft hop hright ihl ihr =>
    obtain ⟨p, rfl, hne, hp⟩ := ihl hs
    obtain ⟨q, rfl, hqne, hq⟩ := ihr fun hmem => hs (by simp [hmem])
    exact ⟨p ++ _ :: q, by simp, by simp, hp.chain hne hop hq hqne⟩
  | negation h ih =>
    obtain ⟨p, rfl, hne, hp⟩ := ih fun hmem => hs (List.mem_cons_of_mem _ hmem)
    exact ⟨_, rfl, List.cons_ne_nil _ _, hp.cons hne (by decide)⟩
  | root h ih =>
    obtain ⟨p, rfl, hne, hp⟩ := ih fun hmem => hs (List.mem_cons_of_mem _ hmem)
    exact ⟨_, rfl, List.cons_ne_nil _ _, hp.cons hne (by decide)⟩
  | literal h => exact absurd (by simp) hs
  | group hliteral h ih => exact absurd (by simp) hs
  | call hc hread h ih =>
    rw [← Identifier.chars_of_read_call hread] at hs
    exact absurd (by simp) hs
  | name hc hread =>
    obtain ⟨hne, hletters⟩ := Identifier.isLetter_of_read_name hc hread
    exact ⟨_, (Identifier.append_of_read_name hread).symm, hne, Neighbours.of_isLetter hletters⟩
  | numeral hne hrun hmaximal hread => exact ⟨_, rfl, hne, Neighbours.of_isNumeralChar hrun⟩

/-! ## Marks before imaginary units -/

/-- Whether every mark of a product stands directly before an imaginary unit. -/
def marksUnits : List Char → Bool
  | [] => true
  | c :: s => (c != invisibleTimes || s.head?.any Complex.isUnitLetter) && marksUnits s

/-- What stands behind a mark. -/
theorem exists_of_marksUnits {front back : List Char}
    (h : marksUnits (front ++ invisibleTimes :: back) = true) :
    ∃ c rest, back = c :: rest ∧ Complex.isUnitLetter c = true := by
  induction front with
  | nil =>
    have hhead := (Bool.and_eq_true_iff.1 h).1
    cases back with
    | nil => exact absurd hhead (by decide)
    | cons c rest => exact ⟨c, rest, rfl, by simpa using hhead⟩
  | cons x front ih => exact ih (Bool.and_eq_true_iff.1 h).2

/-- A text without the marks of products. -/
def withoutMarks (s : List Char) : List Char := s.filter fun c => c != invisibleTimes

/-- A text that has no marks is left as it is. -/
theorem withoutMarks_of_not_mem {s : List Char} (h : invisibleTimes ∉ s) : withoutMarks s = s := by
  rw [withoutMarks, List.filter_eq_self]
  intro c hc
  rw [bne_iff_ne]
  rintro rfl
  exact h hc

/-- A unit before which a mark stands is kept. -/
theorem mem_withoutMarks_of_mark {front back : List Char}
    (h : marksUnits (front ++ invisibleTimes :: back) = true) :
    ∃ c rest, back = c :: rest ∧ Complex.isUnitLetter c = true ∧
      withoutMarks (front ++ invisibleTimes :: back)
        = withoutMarks front ++ c :: withoutMarks rest := by
  obtain ⟨c, rest, rfl, hc⟩ := exists_of_marksUnits h
  have hkept : (c != invisibleTimes) = true := by
    rw [bne_iff_ne]
    rintro rfl
    exact absurd hc (by decide)
  refine ⟨c, rest, rfl, hc, ?_⟩
  simp [withoutMarks, hkept]

/-- Without imaginary units there are no marks. -/
theorem withoutMarks_eq_self {s : List Char} (h : marksUnits s = true)
    (hunit : ∀ c ∈ withoutMarks s, Complex.isUnitLetter c = false) : withoutMarks s = s := by
  refine withoutMarks_of_not_mem fun hmem => ?_
  obtain ⟨front, back, rfl⟩ := List.append_of_mem hmem
  obtain ⟨c, rest, -, hc, heq⟩ := mem_withoutMarks_of_mark h
  rw [heq] at hunit
  rw [hunit c (by simp)] at hc
  exact absurd hc Bool.false_ne_true

/-- If the only imaginary unit stands at the end, so does the only mark. -/
theorem eq_of_withoutMarks_eq_append {s body : List Char} {x : Char} (h : marksUnits s = true)
    (hs : withoutMarks s = body ++ [x])
    (hbody : ∀ c ∈ body, Complex.isUnitLetter c = false) :
    s = body ++ [x] ∨ s = body ++ [invisibleTimes, x] := by
  by_cases hmem : invisibleTimes ∈ s
  · right
    obtain ⟨front, back, rfl, hfront⟩ := List.eq_append_cons_of_mem hmem
    obtain ⟨c, rest, rfl, hc, heq⟩ := mem_withoutMarks_of_mark h
    rw [withoutMarks_of_not_mem hfront, hs] at heq
    -- the unit behind the first mark is the last character that is kept
    have hlast : front = body ∧ c = x ∧ withoutMarks rest = [] := by
      rcases List.append_eq_append_iff.1 heq with ⟨t, rfl, ht⟩ | ⟨t, rfl, ht⟩
      · cases t with
        | nil =>
          obtain ⟨rfl, hrest⟩ := List.cons.inj ht
          exact ⟨by simp, rfl, hrest.symm⟩
        | cons y t => exact absurd (congrArg List.length ht) (by simp)
      · cases t with
        | nil =>
          obtain ⟨rfl, hrest⟩ := List.cons.inj ht
          exact ⟨by simp, rfl, hrest⟩
        | cons y t =>
          obtain ⟨rfl, -⟩ := List.cons.inj ht
          rw [hbody c (by simp)] at hc
          exact absurd hc Bool.false_ne_true
    obtain ⟨rfl, rfl, hrest⟩ := hlast
    cases rest with
    | nil => rfl
    | cons y rest =>
      -- a further character would be a mark, with a unit behind it
      have hy : y = invisibleTimes := by
        by_contra hne
        rw [withoutMarks, List.filter_cons_of_pos (by simpa using hne)] at hrest
        exact absurd hrest (List.cons_ne_nil _ _)
      subst hy
      have h' : front ++ invisibleTimes :: c :: invisibleTimes :: rest
          = (front ++ [invisibleTimes, c]) ++ invisibleTimes :: rest := by simp
      rw [h'] at h
      obtain ⟨d, rest', rfl, hd, -⟩ := mem_withoutMarks_of_mark h
      have hkept : (d != invisibleTimes) = true := by
        rw [bne_iff_ne]
        rintro rfl
        exact absurd hd (by decide)
      simp [withoutMarks, hkept] at hrest
  · left
    rwa [withoutMarks_of_not_mem hmem] at hs

/-! ## The worth of complex numbers -/

/-- `Agrees z w`: the imaginary parts are worth the same, and where that of `w` is finite so
are the real parts. -/
def Agrees (z w : Complex) : Prop :=
  (w.im.isFinite = true → worth z.re = worth w.re) ∧ worth z.im = worth w.im

/-- A real number times the imaginary unit. -/
theorem Complex.agrees_mul_unit {z : Complex} (him : worth z.im = worth 0) :
    Agrees (z * unit) ⟨0, z.re⟩ := by
  constructor
  · intro hfinite
    show worth (z.re * 0 - z.im * 1) = worth 0
    rw [worth_sub_zero ((worth_mul_one _).trans him)]
    exact worth_mul_zero hfinite rfl
  · show worth (z.re * 1 + z.im * 0) = worth z.re
    rw [worth_add_zero (worth_mul_zero (isFinite_congr him) rfl), worth_mul_one]

/-- A real number and an imaginary one. -/
theorem Complex.agrees_add {z w : Complex} {x y : Float} (hz : Agrees z ⟨x, 0⟩)
    (hw : Agrees w ⟨0, y⟩) : Agrees (z + w) ⟨x, y⟩ := by
  refine ⟨fun hfinite => ?_, (worth_zero_add hz.2).trans hw.2⟩
  exact (worth_add_zero (hw.1 hfinite)).trans (hz.1 isFinite_zero)

/-- A real number without an imaginary one. -/
theorem Complex.agrees_sub {z w : Complex} {x y : Float} (hz : Agrees z ⟨x, 0⟩)
    (hw : Agrees w ⟨0, y⟩) : Agrees (z - w) ⟨x, -y⟩ := by
  refine ⟨fun hfinite => ?_, (worth_zero_sub hz.2).trans (worth_neg_congr hw.2)⟩
  exact (worth_sub_zero (hw.1 ((isFinite_neg y).symm.trans hfinite))).trans (hz.1 isFinite_zero)

/-! ## Decimals as operands -/

/-- A decimal in a formula has no power of ten: its mark would follow a digit or a point. -/
theorem isNumeralChar_of_isUnsigned {u : List Char} (hu : Numeral.IsUnsigned u)
    (hchain : u.IsChain Adjoins) : ∀ c ∈ u, Reader.isNumeralChar c = true := by
  have hdigits : ∀ {digits : List Char}, Numeral.IsDigits digits →
      ∀ c ∈ digits, Reader.isNumeralChar c = true := by
    intro digits hdigits c hc
    rw [Reader.isNumeralChar, hdigits c hc, Bool.true_or]
  have hexponent : ∀ {front exponent : List Char}, front ≠ [] →
      (∀ c ∈ front, Reader.isNumeralChar c = true) → Numeral.IsExponent exponent →
      (front ++ exponent).IsChain Adjoins →
      ∀ c ∈ front ++ exponent, Reader.isNumeralChar c = true := by
    intro front exponent hne hfront hexponent hchain
    cases hexponent with
    | none => rwa [List.append_nil]
    | @power mark sign digits hmark _ _ _ =>
      obtain ⟨front, c, rfl⟩ := (List.eq_nil_or_concat' front).resolve_left hne
      have hadjoins := (List.isChain_append.1 hchain).2.2 c List.getLast?_concat mark rfl
      have hletter := hadjoins.1 (hfront c (by simp))
      rcases hmark with rfl | rfl <;> exact absurd hletter (by decide)
  cases hu with
  | whole hne hdigits' hexponent' =>
    exact hexponent hne (hdigits hdigits') hexponent' hchain
  | point hne hwhole hfraction hexponent' =>
    refine hexponent (by simp) (fun c hc => ?_) hexponent' hchain
    rcases List.mem_append.1 hc with hc | hc
    · exact hdigits hwhole c hc
    · rcases List.mem_cons.1 hc with rfl | hc
      · decide
      · exact hdigits hfraction c hc

variable (dialect : Dialect) (bindings : Bindings)

/-- A decimal without a sign is a numeral of formulas. -/
theorem exists_formula_of_isUnsigned {u rest : List Char} {n : Numeral}
    (hu : Numeral.IsUnsigned u) (hn : Numeral.read? u = some n) (hchain : u.IsChain Adjoins)
    (hrest : ∀ c ∈ rest.head?, Reader.isNumeralChar c = false) :
    ∃ f, Derives dialect .primary 0 f (u ++ rest) rest ∧
      f.HasValue bindings (.ofReal n.toFloat) := by
  have hchars := isNumeralChar_of_isUnsigned hu hchain
  have hne : u ≠ [] := by
    rintro rfl
    obtain ⟨c, hc, -⟩ := hu.exists_getLast?
    exact absurd hc (by simp)
  exact ⟨_, Derives.numeral hne hchars hrest hn,
    Formula.HasValue.leaf (leafValue?_of_ofLiteral (ofLiteral_of_numeral hchars hn) bindings)⟩

/-- A decimal, with or without a minus, is an operand of formulas. -/
theorem exists_formula_of_isDecimal {d rest : List Char} {n : Numeral}
    (hd : Numeral.IsDecimal d) (hn : Numeral.read? d = some n) (hchain : d.IsChain Adjoins)
    (hplus : ∀ c ∈ d.head?, c ≠ '+')
    (hrest : ∀ c ∈ rest.head?, Reader.isNumeralChar c = false) :
    ∃ f z, Derives dialect .signed 0 f (d ++ rest) rest ∧ f.HasValue bindings z ∧
      Agrees z ⟨n.toFloat, 0⟩ := by
  obtain ⟨sign, u, rfl, hsign, hu⟩ := hd
  obtain ⟨m, hread⟩ := hu.exists_read?_append
  rw [hread hsign] at hn
  obtain rfl := Option.some.inj hn
  have hu' := hread (Or.inl rfl)
  rcases hsign with rfl | rfl | rfl
  · obtain ⟨f, hf, hvalue⟩ := exists_formula_of_isUnsigned dialect bindings hu hu' hchain hrest
    exact ⟨f, _, Derives.operand (by decide) hf, hvalue, fun _ => rfl, rfl⟩
  · exact absurd rfl (hplus '+' rfl)
  · obtain ⟨f, hf, hvalue⟩ :=
      exists_formula_of_isUnsigned dialect bindings hu hu' (List.isChain_cons.1 hchain).2 hrest
    refine ⟨_, _, Derives.negation hf, Formula.HasValue.negation hvalue, fun _ => ?_, ?_⟩
    · exact (worth_mul_neg_one _).trans
        (congrArg withoutZeroSign (numberOf_toFloat_negative m.coefficient m.exponent)).symm
    · exact (worth_mul_neg_one 0).trans (worth_neg_zero rfl)

/-- An imaginary unit is a letter. -/
theorem isLetter_of_isUnitLetter {x : Char} (hx : Complex.isUnitLetter x = true) :
    isLetter x = true := by
  rcases Complex.isUnitLetter_iff.1 hx with rfl | rfl <;> decide

/-- The imaginary unit is a name of formulas. -/
theorem exists_formula_of_isUnitLetter {x : Char} (hx : Complex.isUnitLetter x = true) :
    ∃ f, Derives dialect .primary 0 f [x] [] ∧ f.HasValue bindings .unit := by
  have hletter := isLetter_of_isUnitLetter hx
  have hread : Identifier.read dialect [x] = (.name [x], []) :=
    Identifier.read_of_lone hletter (by simp)
  refine ⟨_, Derives.name hletter hread, Formula.HasValue.leaf ?_⟩
  rcases Complex.isUnitLetter_iff.1 hx with rfl | rfl <;> rfl

/-! ## Literals in two parts -/

/-- A decimal times the imaginary unit. -/
theorem exists_formula_of_imaginary {d : List Char} {n : Numeral} {x : Char}
    (hd : Numeral.IsDecimal d) (hn : Numeral.read? d = some n) (hchain : d.IsChain Adjoins)
    (hplus : ∀ c ∈ d.head?, c ≠ '+') (hx : Complex.isUnitLetter x = true) :
    ∃ f z, Derives dialect .product 0 f (d ++ [invisibleTimes, x]) [] ∧
      f.HasValue bindings z ∧ Agrees z ⟨0, n.toFloat⟩ := by
  have hmark : ∀ c ∈ [invisibleTimes, x].head?, Reader.isNumeralChar c = false := by
    intro c hc
    obtain rfl := Option.some.inj hc
    decide
  obtain ⟨f, z, hf, hz, hre, him⟩ :=
    exists_formula_of_isDecimal dialect bindings hd hn hchain hplus hmark
  obtain ⟨g, hg, hunit⟩ := exists_formula_of_isUnitLetter dialect bindings hx
  have hproduct := Complex.agrees_mul_unit him
  have hmul : BinaryOperator.ofChar? invisibleTimes = some .mul := rfl
  have hderives : Derives dialect .product (max 0 0) (.binary .mul f g)
      (d ++ [invisibleTimes, x]) [] :=
    Derives.chain rfl (hf.of_tighter (by decide)) hmul (hg.of_tighter (by decide))
  have hvalue : Formula.HasValue bindings (.binary .mul f g) (z * .unit) :=
    Formula.HasValue.binary hz hunit rfl
  exact ⟨_, _, hderives, hvalue,
    fun hfinite => hproduct.1 ((isFinite_congr (hre isFinite_zero)).trans hfinite),
    hproduct.2.trans (hre isFinite_zero)⟩

/-- A decimal with an imaginary part behind its sign. -/
theorem exists_formula_of_parts {d t : List Char} {n : Numeral} {sign : Char}
    {g : Formula} {w : Complex} {y : Float}
    (hd : Numeral.IsDecimal d) (hn : Numeral.read? d = some n) (hchain : d.IsChain Adjoins)
    (hplus : ∀ c ∈ d.head?, c ≠ '+') (hsign : sign = '+' ∨ sign = '-')
    (hg : Derives dialect .product 0 g t []) (hw : g.HasValue bindings w)
    (hagrees : Agrees w ⟨0, y⟩) :
    ∃ f z, Derives dialect .sum 0 f (d ++ sign :: t) [] ∧ f.HasValue bindings z ∧
      Agrees z ⟨n.toFloat, if sign = '-' then -y else y⟩ := by
  have hrest : ∀ c ∈ (sign :: t).head?, Reader.isNumeralChar c = false := by
    intro c hc
    obtain rfl := Option.some.inj hc
    rcases hsign with rfl | rfl <;> decide
  obtain ⟨f, z, hf, hz, hreal⟩ :=
    exists_formula_of_isDecimal dialect bindings hd hn hchain hplus hrest
  have hleft : Derives dialect .sum 0 f (d ++ sign :: t) (sign :: t) :=
    hf.of_tighter (by decide)
  rcases hsign with rfl | rfl
  · have hop : BinaryOperator.ofChar? '+' = some .add := rfl
    have hderives : Derives dialect .sum (max 0 0) (.binary .add f g) (d ++ '+' :: t) [] :=
      Derives.chain rfl hleft hop hg
    have hvalue : Formula.HasValue bindings (.binary .add f g) (z + w) :=
      Formula.HasValue.binary hz hw rfl
    exact ⟨_, _, hderives, hvalue, Complex.agrees_add hreal hagrees⟩
  · have hop : BinaryOperator.ofChar? '-' = some .sub := rfl
    have hderives : Derives dialect .sum (max 0 0) (.binary .sub f g) (d ++ '-' :: t) [] :=
      Derives.chain rfl hleft hop hg
    have hvalue : Formula.HasValue bindings (.binary .sub f g) (z - w) :=
      Formula.HasValue.binary hz hw rfl
    exact ⟨_, _, hderives, hvalue, Complex.agrees_sub hreal hagrees⟩

/-! ## Literals as a whole -/

/-- What a sign does to a decimal without one. -/
theorem worth_toFloat_of_sign {u : List Char} {m n : Numeral} {sign : Char}
    (hsign : sign = '+' ∨ sign = '-') (hu : Numeral.IsUnsigned u)
    (hm : Numeral.read? (sign :: u) = some m) (hn : Numeral.read? u = some n) :
    worth m.toFloat = worth (if sign = '-' then -n.toFloat else n.toFloat) := by
  obtain ⟨k, hread⟩ := hu.exists_read?_append
  have hbare : Numeral.read? u = some { k with negative := false } := hread (Or.inl rfl)
  rw [hbare] at hn
  obtain rfl := Option.some.inj hn
  rcases hsign with rfl | rfl
  · have hplus : Numeral.read? ('+' :: u) = some { k with negative := false } :=
      hread (Or.inr (Or.inl rfl))
    rw [hplus] at hm
    obtain rfl := Option.some.inj hm
    rw [if_neg (by decide)]
  · have hminus : Numeral.read? ('-' :: u) = some { k with negative := true } :=
      hread (Or.inr (Or.inr rfl))
    rw [hminus] at hm
    obtain rfl := Option.some.inj hm
    rw [if_pos rfl]
    exact congrArg withoutZeroSign (numberOf_toFloat_negative k.coefficient k.exponent)

/-- The front of a text is one without a plus before it. -/
theorem Neighbours.front {p q : List Char} (h : Neighbours (p ++ q)) :
    p.IsChain Adjoins ∧ ∀ c ∈ p.head?, c ≠ '+' := by
  refine ⟨(List.isChain_append.1 h.isChain).1, fun c hc => ?_⟩
  obtain ⟨p, rfl⟩ := List.head?_eq_some_iff.1 hc
  exact (h.head c rfl).1

/-- Neighbours in the middle of a text. -/
theorem Neighbours.adjoins {front back : List Char} {a b : Char}
    (h : Neighbours (front ++ a :: b :: back)) : Adjoins a b :=
  (List.isChain_cons_cons.1 (List.isChain_append.1 h.isChain).2.1).1

/-- No mark of a product follows a sign. -/
theorem Neighbours.not_sign_mark {front back : List Char} {sign : Char}
    (h : Neighbours (front ++ sign :: invisibleTimes :: back)) : ¬ (sign = '+' ∨ sign = '-') := by
  rintro (rfl | rfl)
  · exact h.adjoins.2 (by decide) rfl
  · exact h.adjoins.2 (by decide) rfl

/-- No imaginary unit follows a decimal. -/
theorem Neighbours.not_unit_after_decimal {front u : List Char} {x : Char}
    (h : Neighbours (front ++ u ++ [x])) (hu : Numeral.IsUnsigned u) :
    ¬ Complex.isUnitLetter x = true := by
  intro hx
  obtain ⟨c, hc, hend⟩ := hu.exists_getLast?
  obtain ⟨u, rfl⟩ := List.getLast?_eq_some_iff.1 hc
  have htext : front ++ (u ++ [c]) ++ [x] = (front ++ u) ++ c :: x :: [] := by simp
  rw [htext] at h
  have hnumeral : Reader.isNumeralChar c = true := by
    rw [Reader.isNumeralChar, Bool.or_eq_true, beq_iff_eq]
    exact hend
  have hletter := h.adjoins.1 hnumeral
  rw [isLetter_of_isUnitLetter hx] at hletter
  exact absurd hletter.symm Bool.false_ne_true

/-- The imaginary unit with an optional minus. -/
theorem exists_formula_of_unit {sign : List Char} {x : Char} (hsign : Numeral.IsSign sign)
    (hplus : sign ≠ ['+']) (hx : Complex.isUnitLetter x = true) :
    ∃ f z, Derives dialect .sum 0 f (sign ++ [x]) [] ∧ f.HasValue bindings z ∧
      Agrees z ⟨0, Complex.signedOne sign⟩ := by
  obtain ⟨f, hf, hunit⟩ := exists_formula_of_isUnitLetter dialect bindings hx
  rcases hsign with rfl | rfl | rfl
  · exact ⟨f, _, hf.of_tighter (by decide), hunit,
      fun _ => rfl, rfl⟩
  · exact absurd rfl hplus
  · exact ⟨_, _, (Derives.negation hf).of_tighter (by decide),
      Formula.HasValue.negation hunit,
      fun _ => (worth_mul_neg_one 0).trans (worth_neg_zero rfl), worth_mul_neg_one 1⟩

/-- A decimal and another one times the imaginary unit behind its sign. -/
theorem exists_formula_of_mixed {d u : List Char} {n m : Numeral} {sign x : Char}
    (hs : Neighbours (d ++ sign :: (u ++ [invisibleTimes, x])))
    (hd : Numeral.IsDecimal d) (hn : Numeral.read? d = some n) (hsign : sign = '+' ∨ sign = '-')
    (hu : Numeral.IsUnsigned u) (hm : Numeral.read? (sign :: u) = some m)
    (hx : Complex.isUnitLetter x = true) :
    ∃ f z, Derives dialect .sum 0 f (d ++ sign :: (u ++ [invisibleTimes, x])) [] ∧
      f.HasValue bindings z ∧ Agrees z ⟨n.toFloat, m.toFloat⟩ := by
  have hu' : Numeral.IsDecimal u := ⟨[], u, rfl, Or.inl rfl, hu⟩
  obtain ⟨k, hk⟩ := Numeral.exists_read?_iff.2 hu'
  have hsigned := worth_toFloat_of_sign hsign hu hm hk
  have hchain : u.IsChain Adjoins := by
    have htail := (List.isChain_append.1 hs.isChain).2.1
    exact (List.isChain_append.1 (List.isChain_cons.1 htail).2).1
  obtain ⟨g, w, hg, hw, himaginary⟩ := exists_formula_of_imaginary dialect bindings hu' hk
    hchain (fun c hc => (hu.head_ne_sign c hc).1) hx
  obtain ⟨f, z, hf, hz, hre, him⟩ := exists_formula_of_parts dialect bindings hd hn
    hs.front.1 hs.front.2 hsign hg hw himaginary
  -- the sign is an operator of the formula, and a part of the literal's decimal
  exact ⟨f, z, hf, hz, fun hfinite => hre ((isFinite_congr hsigned).symm.trans hfinite),
    him.trans hsigned.symm⟩

/-- A literal that is a formula as well, with marks of products only before the imaginary
unit, has a derivation whose value agrees. -/
theorem exists_formula_of_isLiteral {s : List Char} {z : Complex} (hs : Neighbours s)
    (hmarks : marksUnits s = true) (hliteral : Complex.IsLiteral (withoutMarks s) z) :
    ∃ f w, Derives dialect .sum 0 f s [] ∧ f.HasValue bindings w ∧ Agrees w z := by
  generalize hbare : withoutMarks s = bare at hliteral
  cases hliteral with
  | @real d n hd hn =>
    have hbody := Complex.isUnitLetter_of_isDecimal hd
    have hself := withoutMarks_eq_self hmarks (hbare ▸ hbody)
    rw [hbare] at hself
    subst hself
    have hnil : ∀ c ∈ ([] : List Char).head?, Reader.isNumeralChar c = false := by simp
    obtain ⟨f, w, hf, hw, hagrees⟩ := exists_formula_of_isDecimal dialect bindings hd hn
      hs.isChain (fun c hc => (hs.head c hc).1) hnil
    rw [List.append_nil] at hf
    exact ⟨f, w, hf.of_tighter (by decide), hw, hagrees⟩
  | @unit sign x hsign hx =>
    have hbody : ∀ c ∈ sign, Complex.isUnitLetter c = false := by
      rcases hsign with rfl | rfl | rfl <;> simp [Complex.isUnitLetter_of_sign]
    have hne : sign ≠ ['+'] := by
      rintro rfl
      rcases eq_of_withoutMarks_eq_append hmarks hbare hbody with rfl | rfl
      · exact (hs.head '+' rfl).1 rfl
      · exact (hs.head '+' rfl).1 rfl
    rcases eq_of_withoutMarks_eq_append hmarks hbare hbody with rfl | rfl
    · exact exists_formula_of_unit dialect bindings hsign hne hx
    · rcases hsign with rfl | rfl | rfl
      · exact absurd rfl (hs.head _ rfl).2
      · exact absurd rfl hne
      · have hs' : Neighbours ([] ++ '-' :: invisibleTimes :: [x]) := hs
        exact absurd (Or.inr rfl) hs'.not_sign_mark
  | @imaginary d n x hd hn hx =>
    have hbody := Complex.isUnitLetter_of_isDecimal hd
    rcases eq_of_withoutMarks_eq_append hmarks hbare hbody with rfl | rfl
    · obtain ⟨sign, u, rfl, -, hu⟩ := hd
      exact absurd hx (hs.not_unit_after_decimal hu)
    · obtain ⟨f, w, hf, hw, hagrees⟩ := exists_formula_of_imaginary dialect bindings hd hn
        hs.front.1 hs.front.2 hx
      exact ⟨f, w, Derives.operand (by decide) hf, hw, hagrees⟩
  | @mixedUnit d n sign x hd hn hsign hx =>
    have hbody : ∀ c ∈ d ++ [sign], Complex.isUnitLetter c = false := by
      intro c hc
      rcases List.mem_append.1 hc with hc | hc
      · exact Complex.isUnitLetter_of_isDecimal hd c hc
      · rw [List.mem_singleton.1 hc]
        exact Complex.isUnitLetter_of_sign hsign
    have hbare' : withoutMarks s = d ++ [sign] ++ [x] := by rw [hbare, List.append_assoc]; rfl
    rcases eq_of_withoutMarks_eq_append hmarks hbare' hbody with rfl | rfl
    · rw [List.append_assoc] at hs ⊢
      obtain ⟨g, hg, hunit⟩ := exists_formula_of_isUnitLetter dialect bindings hx
      have hparts := exists_formula_of_parts dialect bindings hd hn hs.front.1 hs.front.2 hsign
        (hg.of_tighter (by decide)) hunit (y := 1) ⟨fun _ => rfl, rfl⟩
      rcases hsign with rfl | rfl <;> exact hparts
    · rw [List.append_assoc] at hs
      exact absurd hsign hs.not_sign_mark
  | @mixed d u n m sign x hd hn hsign hu hm hx =>
    have hbody : ∀ c ∈ d ++ sign :: u, Complex.isUnitLetter c = false := by
      intro c hc
      rcases List.mem_append.1 hc with hc | hc
      · exact Complex.isUnitLetter_of_isDecimal hd c hc
      · rcases List.mem_cons.1 hc with rfl | hc
        · exact Complex.isUnitLetter_of_sign hsign
        · exact Complex.isUnitLetter_of_isDecimal ⟨[], u, rfl, Or.inl rfl, hu⟩ c hc
    have hbare' : withoutMarks s = d ++ sign :: u ++ [x] := by rw [hbare, List.append_assoc]; rfl
    rcases eq_of_withoutMarks_eq_append hmarks hbare' hbody with rfl | rfl
    · have htext : d ++ sign :: u ++ [x] = d ++ [sign] ++ u ++ [x] := by simp
      rw [htext] at hs
      exact absurd hx (hs.not_unit_after_decimal hu)
    · rw [List.append_assoc] at hs ⊢
      exact exists_formula_of_mixed dialect bindings hs hd hn hsign hu hm hx

variable {dialect : Dialect} {bindings : Bindings}

/-- **The two ways of reading a literal agree** where it is a formula as well, with marks of
products only before the imaginary unit. -/
theorem agrees_of_isLiteral {s : List Char} {depth : Nat} {f : Formula} {z v : Complex}
    (hderives : Derives dialect .sum depth f s []) (hvalue : f.HasValue bindings v)
    (hliteral : Complex.IsLiteral (withoutMarks s) z) (hmarks : marksUnits s = true) :
    Agrees v z := by
  have hopen : '(' ∉ s := by
    intro hmem
    have hkept : '(' ∈ withoutMarks s := by
      simp only [withoutMarks, List.mem_filter]
      exact ⟨hmem, by decide⟩
    have hchar := Complex.isLiteralChar_of_ofBareLiteral
      (Complex.ofBareLiteral_of_isLiteral hliteral) '(' hkept
    exact absurd hchar (by decide)
  obtain ⟨p, hp, -, hs⟩ := hderives.neighbours hopen
  rw [List.append_nil] at hp
  subst hp
  obtain ⟨g, w, hg, hw, hagrees⟩ := exists_formula_of_isLiteral dialect bindings hs hmarks hliteral
  obtain rfl := hderives.unique hg
  obtain rfl := hvalue.unique hw
  exact hagrees

end ComplexFormula
