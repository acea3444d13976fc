/-
# Names that are asked for

A formula that can be evaluated needs no more names. The scanner still takes the exponent
marks of the literals in parentheses for names, because the reader joins their parts only
later; no other name is listed without need.

* `scannedNames_of_literal` : the names that are scanned in a literal are its letters;
* `Derives.named_of_mem_scannedNames` : any other name that is scanned is a leaf;
* `Bindings.complete_eq_pure_iff` : when nothing is asked.
-/
import ComplexFormula.Bindings.Dialogue
import ComplexFormula.Proofs.Evaluation
import ComplexFormula.Proofs.Literal.Grammar
import ComplexFormula.Proofs.Scanning
import ComplexFormula.Proofs.Unknown

namespace ComplexFormula

/-! ## Letters that stand alone -/

/-- No letter of the text follows another one. -/
def LoneLetters (s : List Char) : Prop :=
  s.IsChain fun a b => isLetter a = true → isLetter b = false

/-- A text without letters has none that follows another one. -/
theorem LoneLetters.of_forall {s : List Char} (h : ∀ c ∈ s, isLetter c = false) :
    LoneLetters s := by
  induction s with
  | nil => exact List.isChain_nil
  | cons c s ih =>
    refine List.isChain_cons.2 ⟨fun b hb _ => ?_, ih fun x hx => h x (List.mem_cons_of_mem c hx)⟩
    exact h b (List.mem_cons_of_mem c (List.mem_of_mem_head? hb))

/-- Two texts may be joined where the first one does not end in a letter. -/
theorem LoneLetters.append {s t : List Char} (hs : LoneLetters s) (ht : LoneLetters t)
    (hlast : ∀ c ∈ s.getLast?, isLetter c = false) : LoneLetters (s ++ t) := by
  refine List.IsChain.append hs ht fun a ha b _ hletter => ?_
  rw [hlast a ha] at hletter
  exact absurd hletter Bool.false_ne_true

/-- Letters that stand alone after others were dropped did so before. -/
theorem LoneLetters.of_filter {p : Char → Bool} (hp : ∀ c, p c = false → isLetter c = false)
    {s : List Char} (h : LoneLetters (s.filter p)) : LoneLetters s := by
  induction s with
  | nil => exact List.isChain_nil
  | cons c s ih =>
    cases hc : p c with
    | false =>
      rw [List.filter_cons_of_neg (by simp [hc])] at h
      refine List.isChain_cons.2 ⟨fun b _ hletter => ?_, ih h⟩
      rw [hp c hc] at hletter
      exact absurd hletter Bool.false_ne_true
    | true =>
      rw [List.filter_cons_of_pos hc] at h
      obtain ⟨hhead, htail⟩ := List.isChain_cons.1 h
      refine List.isChain_cons.2 ⟨fun b hb hletter => ?_, ih htail⟩
      cases hkept : p b with
      | false => exact hp b hkept
      | true =>
        -- the next letter that is kept is the next one
        obtain ⟨s', rfl⟩ := List.head?_eq_some_iff.1 hb
        rw [List.filter_cons_of_pos hkept] at hhead
        exact hhead b rfl hletter

/-! ## The letters of literals -/

/-- A sign is no letter. -/
theorem isLetter_of_isSign {sign : List Char} (h : Numeral.IsSign sign) :
    ∀ c ∈ sign, isLetter c = false := by
  intro c hc
  rcases h with rfl | rfl | rfl
  · exact absurd hc List.not_mem_nil
  · rw [List.mem_singleton.1 hc]
    decide
  · rw [List.mem_singleton.1 hc]
    decide

/-- A decimal has only lone letters. -/
theorem loneLetters_of_isDecimal {d : List Char} (h : Numeral.IsDecimal d) : LoneLetters d := by
  have hdigits : ∀ {digits : List Char}, Numeral.IsDigits digits →
      ∀ c ∈ digits, isLetter c = false := fun hdigits c hc => isLetter_of_isDigit (hdigits c hc)
  -- what stands in front of the power of ten has no letters
  have hexponent : ∀ {front exponent : List Char}, (∀ c ∈ front, isLetter c = false) →
      Numeral.IsExponent exponent → LoneLetters (front ++ exponent) := by
    intro front exponent hfront hexponent
    refine (LoneLetters.of_forall hfront).append ?_ fun c hc => hfront c (List.mem_of_getLast? hc)
    cases hexponent with
    | none => exact List.isChain_nil
    | @power mark sign digits _ hsign' _ hdigits' =>
      have hplain : ∀ c ∈ sign ++ digits, isLetter c = false := by
        intro c hc
        rcases List.mem_append.1 hc with hc | hc
        · exact isLetter_of_isSign hsign' c hc
        · exact hdigits hdigits' c hc
      refine List.isChain_cons.2 ⟨fun b hb _ => ?_, LoneLetters.of_forall hplain⟩
      exact hplain b (List.mem_of_mem_head? hb)
  obtain ⟨sign, unsigned, rfl, hsign', hunsigned⟩ := h
  refine (LoneLetters.of_forall (isLetter_of_isSign hsign')).append ?_
    fun c hc => isLetter_of_isSign hsign' c (List.mem_of_getLast? hc)
  cases hunsigned with
  | whole _ hdigits' hexponent' => exact hexponent (hdigits hdigits') hexponent'
  | point _ hwhole hfraction hexponent' =>
    refine hexponent (fun c hc => ?_) hexponent'
    rcases List.mem_append.1 hc with hc | hc
    · exact hdigits hwhole c hc
    · rcases List.mem_cons.1 hc with rfl | hc
      · decide
      · exact hdigits hfraction c hc

/-- A decimal does not end in a letter. -/
theorem isLetter_getLast?_of_isUnsigned {u : List Char} (h : Numeral.IsUnsigned u) :
    ∀ c ∈ u.getLast?, isLetter c = false := by
  obtain ⟨c, hc, hend⟩ := h.exists_getLast?
  intro c' hc'
  rw [hc] at hc'
  obtain rfl := Option.some.inj hc'
  rcases hend with hdigit | rfl
  · exact isLetter_of_isDigit hdigit
  · decide

/-- A literal has only lone letters. -/
theorem loneLetters_of_isLiteral {s : List Char} {z : Complex} (h : Complex.IsLiteral s z) :
    LoneLetters s := by
  have hlast : ∀ {d : List Char}, Numeral.IsDecimal d →
      ∀ c ∈ d.getLast?, isLetter c = false := by
    rintro d ⟨sign, unsigned, rfl, -, hunsigned⟩ c hc
    obtain ⟨c', hc', -⟩ := hunsigned.exists_getLast?
    rw [List.getLast?_append, hc'] at hc
    exact isLetter_getLast?_of_isUnsigned hunsigned c (by rw [hc']; exact hc)
  cases h with
  | real hd hn => exact loneLetters_of_isDecimal hd
  | @unit sign x hsign hx =>
    exact (LoneLetters.of_forall (isLetter_of_isSign hsign)).append (List.isChain_singleton x)
      fun c hc => isLetter_of_isSign hsign c (List.mem_of_getLast? hc)
  | imaginary hd hn hx =>
    exact (loneLetters_of_isDecimal hd).append (List.isChain_singleton _) (hlast hd)
  | @mixedUnit d n sign x hd hn hsign hx =>
    have htail : LoneLetters (sign :: [x]) := by
      refine List.isChain_cons.2 ⟨fun b _ hletter => ?_, List.isChain_singleton x⟩
      rcases hsign with rfl | rfl <;> exact absurd hletter (by decide)
    exact (loneLetters_of_isDecimal hd).append htail (hlast hd)
  | @mixed d u n m sign x hd hn hsign hu hm hx =>
    have hu' : Numeral.IsDecimal (sign :: u) := Numeral.isDecimal_of_read? hm
    have htail := (loneLetters_of_isDecimal hu').append (List.isChain_singleton x) (hlast hu')
    exact (loneLetters_of_isDecimal hd).append htail (hlast hd)

/-- The letters of a literal. -/
theorem eq_of_isLiteralChar_of_isLetter {c : Char} (h : Complex.isLiteralChar c = true)
    (hc : isLetter c = true) : Complex.isExponentMark c = true ∨ Complex.isUnitLetter c = true := by
  simp only [Complex.isLiteralChar, Numeral.isDecimalChar, Bool.or_eq_true, beq_iff_eq] at h
  have hother : ∀ {x : Char}, isLetter x = false → c ≠ x := by
    rintro x hx rfl
    rw [hc] at hx
    exact absurd hx (by decide)
  rcases h with (((((hdigit | h) | rfl) | rfl) | h) | h) | h
  · rw [isLetter_of_isDigit hdigit] at hc
    exact absurd hc Bool.false_ne_true
  · exact absurd h (hother (by decide))
  · exact Or.inl rfl
  · exact Or.inl rfl
  · exact absurd h (hother (by decide))
  · exact absurd h (hother (by decide))
  · exact Or.inr h

/-- In the content of a literal group no letter follows another one, also where marks of
products stand between its parts. -/
theorem loneLetters_of_ofLiteral {content : List Char} {value : Complex}
    (h : Complex.ofLiteral (literalText content) = .ok value) : LoneLetters content := by
  have hbare := loneLetters_of_isLiteral (Complex.ofBareLiteral_eq_ok_iff.1 h)
  rw [literalText, String.toList_ofList] at hbare
  refine LoneLetters.of_filter (fun c hc => ?_) (LoneLetters.of_filter (fun c hc => ?_) hbare)
  · rw [bne_eq_false_iff_eq] at hc
    rw [hc]
    exact isLetter_invisibleTimes
  · rw [Bool.not_eq_false'] at hc
    rw [← Bool.not_eq_true]
    intro hletter
    rw [isBlank_of_isLetter hletter] at hc
    exact absurd hc Bool.false_ne_true

/-- The letters of the content of a literal group. -/
theorem letter_of_ofLiteral {content : List Char} {value : Complex}
    (h : Complex.ofLiteral (literalText content) = .ok value) {c : Char} (hmem : c ∈ content)
    (hc : isLetter c = true) :
    Complex.isExponentMark c = true ∨ Complex.isUnitLetter c = true := by
  refine eq_of_isLiteralChar_of_isLetter (Complex.isLiteralChar_of_ofBareLiteral h c ?_) hc
  have hmark : c ≠ invisibleTimes := by
    rintro rfl
    rw [isLetter_invisibleTimes] at hc
    exact absurd hc Bool.false_ne_true
  simp [withoutBlanks, literalText, hmem, hmark, isBlank_of_isLetter hc]

/-! ## The lexemes of a literal -/

/-- The lexeme of a character that stands alone. -/
def loneLexeme (c : Char) : Lexeme := if isLetter c = true then .name [c] else .symbol c

/-- Where no letter follows another one, each character is a lexeme. -/
theorem lexemes_append_of_loneLetters (dialect : Dialect) {s t : List Char} (hs : LoneLetters s)
    (ht : ∀ b ∈ t.head?, isLetter b = false) :
    lexemes dialect (s ++ t) = s.map loneLexeme ++ lexemes dialect t := by
  induction s with
  | nil => rfl
  | cons c s ih =>
    obtain ⟨hhead, htail⟩ := List.isChain_cons.1 hs
    rw [List.cons_append, List.map_cons, List.cons_append, ← ih htail, loneLexeme]
    cases hc : isLetter c with
    | false => exact lexemes_of_symbol dialect hc _
    | true =>
      refine lexemes_of_name dialect hc (Identifier.read_of_lone hc fun b hb => ?_)
      cases s with
      | nil => exact ht b hb
      | cons x s => exact hhead b hb hc

/-- The name of a character that stands alone. -/
theorem named?_loneLexeme {c : Char} {name : String} :
    (loneLexeme c).named? = some name ↔ isLetter c = true ∧ name = String.ofList [c] := by
  unfold loneLexeme
  split
  · next hc => simp [Lexeme.named?, hc, eq_comm]
  · next hc => simp [Lexeme.named?, hc]

/-- **The names that are scanned in a literal are its letters.** -/
theorem scannedNames_of_literal (dialect : Dialect) {content : List Char} {value : Complex}
    (h : Complex.ofLiteral (literalText content) = .ok value) (rest : List Char)
    {name : String} :
    name ∈ scannedNames dialect (content ++ ')' :: rest) ↔
      (∃ c ∈ content, isLetter c = true ∧ name = String.ofList [c]) ∨
        name ∈ scannedNames dialect rest := by
  have hclose : isLetter ')' = false := by decide
  have hlexemes : lexemes dialect (content ++ ')' :: rest)
      = content.map loneLexeme ++ .symbol ')' :: lexemes dialect rest := by
    rw [← lexemes_of_symbol dialect hclose]
    refine lexemes_append_of_loneLetters dialect (loneLetters_of_ofLiteral h) fun b hb => ?_
    obtain rfl := Option.some.inj hb
    exact hclose
  rw [scannedNames, hlexemes, List.filterMap_append, List.mem_append, List.filterMap_map,
    List.mem_filterMap]
  simp only [Function.comp_apply, named?_loneLexeme]
  rfl

/-! ## The names of a formula that has a value -/

/-- `MarksExponent s name`: the name is the exponent mark of a literal in parentheses. -/
def MarksExponent (s : List Char) (name : String) : Prop :=
  ∃ content value c, '(' :: (content ++ [')']) <:+: s ∧
    Complex.ofLiteral (literalText content) = .ok value ∧ c ∈ content ∧
    Complex.isExponentMark c = true ∧ name = String.ofList [c]

/-- A literal in a part of a text is one in the text. -/
theorem MarksExponent.mono {s t : List Char} {name : String} (h : MarksExponent s name)
    (hst : s <:+: t) : MarksExponent t name := by
  obtain ⟨content, value, c, hinfix, hliteral⟩ := h
  exact ⟨content, value, c, hinfix.trans hst, hliteral⟩

/-- An exponent mark is a letter. -/
theorem isLetter_of_isExponentMark {c : Char} (h : Complex.isExponentMark c = true) :
    isLetter c = true := by
  rcases Complex.isExponentMark_iff.1 h with rfl | rfl <;> decide

/-- The name of an imaginary unit is reserved. -/
theorem isReserved_of_isUnitLetter {c : Char} (h : Complex.isUnitLetter c = true) :
    isReserved (String.ofList [c]) = true := by
  rcases Complex.isUnitLetter_iff.1 h with rfl | rfl <;> decide

/-- The exponent marks of literals are scanned as names. -/
theorem MarksExponent.mem_scannedNames {dialect : Dialect} {s : List Char} {name : String}
    (h : MarksExponent s name) : name ∈ scannedNames dialect s := by
  obtain ⟨content, value, c, ⟨before, after, rfl⟩, hliteral, hmem, hmark, rfl⟩ := h
  -- the scanner stops behind the opening parenthesis, be it that of a call
  have hcut := @lexemes_suffix_of_cut dialect '(' (by decide) before (content ++ ')' :: after)
  have hscanned := (scannedNames_of_literal dialect hliteral after).2
    (Or.inl ⟨c, hmem, isLetter_of_isExponentMark hmark, rfl⟩)
  have htext : before ++ '(' :: (content ++ [')']) ++ after
      = before ++ '(' :: (content ++ ')' :: after) := by simp
  rw [htext]
  exact scannedNames_subset hcut hscanned

/-- Behind a character that is no letter the same names are scanned. -/
theorem scannedNames_cons {dialect : Dialect} {c : Char} (hc : isLetter c = false)
    (s : List Char) : scannedNames dialect (c :: s) = scannedNames dialect s := by
  rw [scannedNames, lexemes_of_symbol dialect hc]
  rfl

/-- Behind a text without letters the same names are scanned. -/
theorem scannedNames_append {dialect : Dialect} {p : List Char}
    (hp : ∀ c ∈ p, isLetter c = false) (s : List Char) :
    scannedNames dialect (p ++ s) = scannedNames dialect s := by
  induction p with
  | nil => rfl
  | cons c p ih =>
    rw [List.cons_append, scannedNames_cons (hp c List.mem_cons_self)]
    exact ih fun x hx => hp x (List.mem_cons_of_mem c hx)

/-- **A name that is scanned in front of a formula's end is a leaf of the formula**, if it is
not the exponent mark of a literal. -/
theorem Derives.named_of_mem_scannedNames {dialect : Dialect} {X : Precedence} {depth : Nat}
    {f : Formula} {s rest : List Char} (h : Derives dialect X depth f s rest)
    {P : Operand → Prop} (hP : f.AllLeaves P) {name : String}
    (hreserved : isReserved name = false) (hname : name ∈ scannedNames dialect s) :
    P (.name name) ∨ MarksExponent s name ∨ name ∈ scannedNames dialect rest := by
  induction h with
  | operand hX h ih => exact ih hP hname
  | @chain X op c _ _ f g s s' rest hX hleft hop hright ihl ihr =>
    rcases ihl hP.1 hname with h | h | h
    · exact Or.inl h
    · exact Or.inr (Or.inl h)
    · rw [scannedNames_cons (BinaryOperator.isLetter_of_ofChar? hop)] at h
      have hsuffix : s' <:+ s := (List.suffix_cons c s').trans hleft.suffix
      exact (ihr hP.2 h).imp_right (Or.imp_left fun h => h.mono hsuffix.isInfix)
  | negation h ih =>
    rw [scannedNames_cons (by decide)] at hname
    exact (ih hP hname).imp_right
      (Or.imp_left fun h => h.mono (List.suffix_cons _ _).isInfix)
  | root h ih =>
    rw [scannedNames_cons isLetter_rootSign] at hname
    exact (ih hP hname).imp_right
      (Or.imp_left fun h => h.mono (List.suffix_cons _ _).isInfix)
  | @literal content rest value h =>
    rw [List.cons_append, scannedNames_cons (by decide), scannedNames_of_literal dialect h] at hname
    rcases hname with ⟨c, hmem, hc, rfl⟩ | hname
    · -- a letter of a literal that is not reserved is an exponent mark
      have hmark : Complex.isExponentMark c = true := by
        refine (letter_of_ofLiteral h hmem hc).resolve_right fun hunit => ?_
        rw [isReserved_of_isUnitLetter hunit] at hreserved
        exact absurd hreserved (by decide)
      exact Or.inr (Or.inl ⟨content, value, c, ⟨[], rest, by simp⟩, h, hmem, hmark, rfl⟩)
    · exact Or.inr (Or.inr hname)
  | group hliteral h ih =>
    rw [List.cons_append, scannedNames_cons (by decide)] at hname
    rcases ih hP hname with h | h | h
    · exact Or.inl h
    · exact Or.inr (Or.inl (h.mono (List.suffix_cons _ _).isInfix))
    · rw [scannedNames_cons (by decide)] at h
      exact Or.inr (Or.inr h)
  | @call depth function c f s s' rest hc hread h ih =>
    have hsuffix := (List.suffix_cons _ _).trans (Identifier.suffix_of_read_call hread)
    rw [scannedNames, lexemes_of_call dialect hc hread] at hname
    rcases ih hP hname with h | h | h
    · exact Or.inl h
    · exact Or.inr (Or.inl (h.mono hsuffix.isInfix))
    · rw [scannedNames_cons (by decide)] at h
      exact Or.inr (Or.inr h)
  | @name c s rest letters hc hread =>
    rw [scannedNames, lexemes_of_name dialect hc hread] at hname
    rcases List.mem_cons.1 hname with rfl | hname
    · exact Or.inl hP
    · exact Or.inr (Or.inr hname)
  | @numeral run rest n hne hrun hmaximal hread =>
    rw [scannedNames_append fun c hc => isLetter_of_isNumeralChar (hrun c hc)] at hname
    exact Or.inr (Or.inr hname)

/-! ## What is asked -/

namespace Bindings

/-- Nothing is asked where all names are bound. -/
theorem askFor_eq_pure {m : Type → Type} [Monad m] (prompt : String → m (Option String))
    {names : List String} {known : Bindings}
    (h : ∀ name ∈ names, known.contains name = true) :
    askFor prompt names known = pure (.ok known) := by
  induction names with
  | nil => rfl
  | cons name names ih =>
    rw [askFor, if_pos (h name List.mem_cons_self)]
    exact ih fun x hx => h x (List.mem_cons_of_mem name hx)

/-- Where nothing is asked all names are bound: a prompt that gives up is not met. -/
theorem contains_of_askFor_eq_pure {names : List String} {known : Bindings}
    (h : askFor (fun _ => (none : Option (Option String))) names known = pure (.ok known)) :
    ∀ name ∈ names, known.contains name = true := by
  induction names with
  | nil => simp
  | cons name names ih =>
    rw [askFor] at h
    split at h
    · next hname =>
      intro x hx
      rcases List.mem_cons.1 hx with rfl | hx
      · exact hname
      · exact ih h x hx
    · exact absurd h (by simp)

/-- **When nothing is asked.** Of a text that can be evaluated, the names that are listed and
have no value are the exponent marks of literals in parentheses. So no prompt is met, and the
table is left as it is, exactly if these marks happen to be bound. -/
theorem complete_eq_pure_iff {c c' : Calculator} {known : Bindings} {text : String}
    (h : c.evaluate known text = .ok c') :
    (∀ name, known.contains name = false →
      (name ∈ variableNames c.dialect text ↔
        MarksExponent (normalChars c.dialect text.toList) name)) ∧
    ((∀ (m : Type → Type) [Monad m] (prompt : String → m (Option String)),
        complete prompt c.dialect text known = pure (.ok known)) ↔
      ∀ name, MarksExponent (normalChars c.dialect text.toList) name →
        known.contains name = true) := by
  obtain ⟨e, he, -⟩ := Calculator.evaluate_eq_ok_iff.1 h
  obtain ⟨depth, f, z, -, hderives, hz, -⟩ := Evaluation.of_eq_ok_iff.1 he
  have hbound := ((Formula.exists_hasValue_iff hderives.readsBack).1 ⟨z, hz⟩).1
  have hlisted : ∀ name, MarksExponent (normalChars c.dialect text.toList) name →
      name ∈ variableNames c.dialect text := by
    intro name hname
    refine mem_variableNames_iff.2 ⟨hname.mem_scannedNames, ?_⟩
    obtain ⟨content, value, x, -, -, -, hmark, rfl⟩ := hname
    rcases Complex.isExponentMark_iff.1 hmark with rfl | rfl <;> decide
  have hmarks : ∀ name, known.contains name = false → name ∈ variableNames c.dialect text →
      MarksExponent (normalChars c.dialect text.toList) name := by
    intro name hunbound hname
    obtain ⟨hscanned, hreserved⟩ := mem_variableNames_iff.1 hname
    rcases hderives.named_of_mem_scannedNames hbound hreserved hscanned with hleaf | hmark | hrest
    · -- a leaf has a value, and it is not that of a reserved name
      have hnone : known.resolve? name = none :=
        Bindings.resolve?_eq_none_iff.2 ⟨hreserved, by simpa [contains] using hunbound⟩
      rw [Operand.IsBound, hnone] at hleaf
      exact absurd hleaf (by decide)
    · exact hmark
    · rw [scannedNames, lexemes_nil] at hrest
      exact absurd hrest List.not_mem_nil
  refine ⟨fun name hunbound => ⟨hmarks name hunbound, hlisted name⟩, ?_, ?_⟩
  · intro hsilent name hname
    exact contains_of_askFor_eq_pure (hsilent Option _) name (hlisted name hname)
  · intro hknown m _ prompt
    refine askFor_eq_pure prompt fun name hname => ?_
    by_contra hunbound
    rw [Bool.not_eq_true] at hunbound
    rw [hknown name (hmarks name hunbound hname)] at hunbound
    exact absurd hunbound (by decide)

/-- A power of ten in parentheses has a value without any bindings. -/
theorem evaluate_exponent :
    Calculator.evaluate {} .empty "(1e5)" =
      .ok ⟨{}, some ⟨normalize {} "(1e5)", .empty, .leaf "1e5", ⟨100000, 0⟩⟩⟩ := by
  decide +kernel

/-- The mark of its exponent is listed. -/
theorem mem_variableNames_exponent : "e" ∈ variableNames {} "(1e5)" := by
  decide +kernel

/-- So it is asked for. -/
theorem complete_eq_pure_iff_exponent :
    MarksExponent (normalChars {} "(1e5)".toList) "e" ∧
      ¬ ∀ (m : Type → Type) [Monad m] (prompt : String → m (Option String)),
        complete prompt {} "(1e5)" .empty = pure (.ok .empty) := by
  obtain ⟨hlisted, hsilent⟩ := complete_eq_pure_iff evaluate_exponent
  have hmark := (hlisted "e" rfl).1 mem_variableNames_exponent
  refine ⟨hmark, fun h => ?_⟩
  exact absurd (hsilent.1 h "e" hmark) (by decide)

/-- A text can be evaluated and still list a name without a value. -/
theorem not_contains_of_mem_variableNames :
    ¬ ∀ (c c' : Calculator) (known : Bindings) (text : String),
      c.evaluate known text = .ok c' →
        ∀ name ∈ variableNames c.dialect text, known.contains name = true := by
  intro h
  exact absurd (h {} _ .empty "(1e5)" evaluate_exponent "e" mem_variableNames_exponent) (by decide)

end Bindings

end ComplexFormula
