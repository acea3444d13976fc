/-
# The grammar of formulas

The grammar says which formula a text spells, and how deep its groups, calls and roots are
nested, without saying how to find it out.

    Sum     := Product | Sum ('+' | '-') Product
    Product := Power | Product ('*' | '/' | implied product) Power
    Power   := Signed | Power '^' Signed
    Signed  := Primary | '-' Primary
    Primary := '√' Signed | '(' Literal ')' | '(' Sum ')' | function '(' Sum ')'
             | name | numeral

* `Derives` : the derivations of the grammar;
* `Derives.exists_balanced` : what is derived has balanced parentheses.
-/
import ComplexFormula.Formula.Reader
import ComplexFormula.Proofs.Identifier
import ComplexFormula.Proofs.Literal
import ComplexFormula.Proofs.Parentheses

namespace ComplexFormula

/-! ## Precedences -/

/-- The symbols of the grammar, from the loosest to the tightest. -/
inductive Precedence where
  | sum
  | product
  | power
  | signed
  | primary
  deriving DecidableEq

namespace Precedence

/-- How tight a symbol binds. -/
def rank : Precedence → Nat
  | sum => 0
  | product => 1
  | power => 2
  | signed => 3
  | primary => 4

/-- The symbol of the operands of a symbol. -/
def tighter : Precedence → Precedence
  | sum => product
  | product => power
  | power => signed
  | signed => primary
  | primary => primary

/-- No symbol is tighter than a primary. -/
theorem rank_le_primary (X : Precedence) : X.rank ≤ primary.rank := by
  cases X <;> decide

/-- What each symbol has from its operands, a symbol has from any tighter one. -/
theorem of_tighter {P : Precedence → Prop} {X Y : Precedence} (hXY : X.rank ≤ Y.rank)
    (hstep : ∀ X, X ≠ primary → P X.tighter → P X) (hY : P Y) : P X := by
  -- one symbol after the other, from the tighter one to the looser one
  induction hn : Y.rank - X.rank generalizing X with
  | zero =>
    have hrank : X.rank = Y.rank := by omega
    have hsame : X = Y := by
      cases X <;> cases Y <;> first | rfl | exact absurd hrank (by decide)
    rwa [hsame]
  | succ n ih =>
    have hprimary : X ≠ primary := by
      rintro rfl
      have := Y.rank_le_primary
      omega
    have htighter : X.tighter.rank = X.rank + 1 := by
      cases X <;> first | rfl | exact absurd rfl hprimary
    exact hstep X hprimary (ih (by omega) (by omega))

end Precedence

/-- The symbol whose chains an operator forms. -/
def BinaryOperator.precedence : BinaryOperator → Precedence
  | add | sub => .sum
  | mul | div => .product
  | pow => .power

/-! ## Derivations -/

/-- The literal that a content spells once the marks of implied products are dropped. -/
def literalText (content : List Char) : String :=
  String.ofList (content.filter fun c => c != invisibleTimes)

/-- `Derives dialect X depth f s rest`: the symbol `X` derives the formula `f` from the front
of `s`, up to `rest`, and `depth` is the largest number of groups, calls and roots that are
open at once. -/
inductive Derives (dialect : Dialect) :
    Precedence → Nat → Formula → List Char → List Char → Prop
  /-- An operand alone. -/
  | operand {X : Precedence} {depth : Nat} {f : Formula} {s rest : List Char}
      (hX : X ≠ .primary) (h : Derives dialect X.tighter depth f s rest) :
      Derives dialect X depth f s rest
  /-- A chain is folded to the left. -/
  | chain {X : Precedence} {op : BinaryOperator} {c : Char} {depth depth' : Nat}
      {f g : Formula} {s s' rest : List Char} (hX : op.precedence = X)
      (hleft : Derives dialect X depth f s (c :: s'))
      (hop : BinaryOperator.ofChar? c = some op)
      (hright : Derives dialect X.tighter depth' g s' rest) :
      Derives dialect X (max depth depth') (.binary op f g) s rest
  /-- A sign stands before a primary. -/
  | negation {depth : Nat} {f : Formula} {s rest : List Char}
      (h : Derives dialect .primary depth f s rest) :
      Derives dialect .signed depth (.unary .negation f) ('-' :: s) rest
  /-- A root is taken of a primary, with or without a sign. -/
  | root {depth : Nat} {f : Formula} {s rest : List Char}
      (h : Derives dialect .signed depth f s rest) :
      Derives dialect .primary (depth + 1) (.unary (.operation .root) f) (rootSign :: s) rest
  /-- A group that spells a literal is one operand. -/
  | literal {content rest : List Char} {value : Complex}
      (h : Complex.ofLiteral (literalText content) = .ok value) :
      Derives dialect .primary 1 (.leaf (.constant (literalText content) value))
        ('(' :: content ++ ')' :: rest) rest
  /-- Any other group encloses a sum. -/
  | group {depth : Nat} {f : Formula} {content rest : List Char}
      (hliteral : ∀ value, Complex.ofLiteral (literalText content) ≠ .ok value)
      (h : Derives dialect .sum depth f (content ++ ')' :: rest) (')' :: rest)) :
      Derives dialect .primary (depth + 1) f ('(' :: content ++ ')' :: rest) rest
  /-- The argument of a function is a sum in parentheses. -/
  | call {depth : Nat} {function : RealFunction} {c : Char} {f : Formula}
      {s s' rest : List Char} (hc : isLetter c = true)
      (hread : Identifier.read dialect (c :: s) = (.call function, '(' :: s'))
      (h : Derives dialect .sum depth f s' (')' :: rest)) :
      Derives dialect .primary (depth + 1) (.unary (.operation (.call function)) f)
        (c :: s) rest
  /-- A name is read up to where it ends in its text. -/
  | name {c : Char} {s rest letters : List Char} (hc : isLetter c = true)
      (hread : Identifier.read dialect (c :: s) = (.name letters, rest)) :
      Derives dialect .primary 0 (.leaf (.name (String.ofList letters))) (c :: s) rest
  /-- A numeral is a run of digits and points that does not go on. -/
  | numeral {run rest : List Char} {n : Numeral} (hne : run ≠ [])
      (hrun : ∀ c ∈ run, Reader.isNumeralChar c = true)
      (hmaximal : ∀ c ∈ rest.head?, Reader.isNumeralChar c = false)
      (hread : Numeral.read? run = some n) :
      Derives dialect .primary 0
        (.leaf (.constant (String.ofList run) (.ofReal n.toFloat))) (run ++ rest) rest

/-- **A derivation depends on the dialect by its identifiers alone.** -/
theorem Derives.of_read {dialect dialect' : Dialect}
    (hidentifiers : ∀ s, Identifier.read dialect' s = Identifier.read dialect s) {X : Precedence}
    {depth : Nat} {f : Formula} {s rest : List Char} (h : Derives dialect X depth f s rest) :
    Derives dialect' X depth f s rest := by
  induction h with
  | operand hX h ih => exact .operand hX ih
  | chain hX hleft hop hright ihl ihr => exact .chain hX ihl hop ihr
  | negation h ih => exact .negation ih
  | root h ih => exact .root ih
  | literal h => exact .literal h
  | group hliteral h ih => exact .group hliteral ih
  | call hc hread h ih => exact .call hc ((hidentifiers _).trans hread) ih
  | name hc hread => exact .name hc ((hidentifiers _).trans hread)
  | numeral hne hrun hmaximal hread => exact .numeral hne hrun hmaximal hread

/-- A formula of a tighter symbol is one of a looser symbol. -/
theorem Derives.of_tighter {dialect : Dialect} {X Y : Precedence} {depth : Nat} {f : Formula}
    {s rest : List Char} (h : Derives dialect Y depth f s rest) (hXY : X.rank ≤ Y.rank) :
    Derives dialect X depth f s rest :=
  @Precedence.of_tighter (fun X => Derives dialect X depth f s rest) X Y hXY
    (fun _ hX hoperand => .operand hX hoperand) h

/-! ## Letters, operators and the characters of numerals -/

/-- A character of numerals is no letter. -/
theorem isLetter_of_isNumeralChar {c : Char} (h : Reader.isNumeralChar c = true) :
    isLetter c = false := by
  rw [Reader.isNumeralChar, Bool.or_eq_true, beq_iff_eq] at h
  rcases h with h | rfl
  · exact isLetter_of_isDigit h
  · decide

/-- A character of numerals is no blank. -/
theorem isBlank_of_isNumeralChar {c : Char} (h : Reader.isNumeralChar c = true) :
    isBlank c = false :=
  isBlank_of_class (by decide) h

/-- An operator is no character of numerals. -/
theorem isNumeralChar_of_ofChar? {c : Char} {op : BinaryOperator}
    (h : BinaryOperator.ofChar? c = some op) : Reader.isNumeralChar c = false := by
  rcases BinaryOperator.eq_of_ofChar? h with rfl | rfl
  · decide
  · cases op <;> decide

/-- An operator is no digit. -/
theorem isDigit_of_ofChar? {c : Char} {op : BinaryOperator}
    (h : BinaryOperator.ofChar? c = some op) : c.isDigit = false :=
  (Bool.or_eq_false_iff.1 (isNumeralChar_of_ofChar? h)).1

/-- An operator is no blank. -/
theorem isBlank_of_ofChar? {c : Char} {op : BinaryOperator}
    (h : BinaryOperator.ofChar? c = some op) : isBlank c = false := by
  rcases BinaryOperator.eq_of_ofChar? h with rfl | rfl
  · decide
  · cases op <;> decide

/-- A character of numerals is no operator. -/
theorem ofChar?_of_isNumeralChar {c : Char} (hc : Reader.isNumeralChar c = true) :
    BinaryOperator.ofChar? c = none := by
  cases hop : BinaryOperator.ofChar? c with
  | none => rfl
  | some op =>
    rw [isNumeralChar_of_ofChar? hop] at hc
    exact absurd hc Bool.false_ne_true

/-- A letter is no operator. -/
theorem ofChar?_of_isLetter {c : Char} (hc : isLetter c = true) :
    BinaryOperator.ofChar? c = none := by
  cases hop : BinaryOperator.ofChar? c with
  | none => rfl
  | some op =>
    rw [BinaryOperator.isLetter_of_ofChar? hop] at hc
    exact absurd hc Bool.false_ne_true

/-! ## What is derived is balanced -/

/-- A text of letters is balanced. -/
theorem Balanced.of_isLetter {s : List Char} (h : ∀ c ∈ s, isLetter c = true) :
    Balanced s := by
  refine of_not_mem (fun hmem => ?_) (fun hmem => ?_)
  · exact absurd (h '(' hmem) (by decide)
  · exact absurd (h ')' hmem) (by decide)

/-- A text of digits and points is balanced. -/
theorem Balanced.of_isNumeralChar {s : List Char}
    (h : ∀ c ∈ s, Reader.isNumeralChar c = true) : Balanced s := by
  refine of_not_mem (fun hmem => ?_) (fun hmem => ?_)
  · exact absurd (h '(' hmem) (by decide)
  · exact absurd (h ')' hmem) (by decide)

/-- The content of a literal group is balanced, because a literal has no parentheses. -/
theorem Balanced.of_literal {content : List Char} {value : Complex}
    (h : Complex.ofLiteral (literalText content) = .ok value) : Balanced content := by
  -- only blanks and marks of products are dropped, and they are no parentheses
  have hmem : ∀ c ∈ content, isBlank c = false → c ≠ invisibleTimes →
      Complex.isLiteralChar c = true := by
    intro c hc hblank hmark
    refine Complex.isLiteralChar_of_ofBareLiteral h c ?_
    simp [withoutBlanks, literalText, hc, hblank, hmark]
  refine of_not_mem (fun hparen => ?_) (fun hparen => ?_)
  · exact absurd (hmem '(' hparen (by decide) (by decide)) (by decide)
  · exact absurd (hmem ')' hparen (by decide) (by decide)) (by decide)

/-- A derivation takes a text that is not empty and balanced. -/
theorem Derives.exists_balanced {dialect : Dialect} {X : Precedence} {depth : Nat}
    {f : Formula} {s rest : List Char} (h : Derives dialect X depth f s rest) :
    ∃ p, s = p ++ rest ∧ p ≠ [] ∧ Balanced p := by
  induction h with
  | operand hX h ih => exact ih
  | @chain X op c _ _ f g s s' rest hX hleft hop hright ihl ihr =>
    obtain ⟨p, rfl, hne, hp⟩ := ihl
    obtain ⟨q, rfl, -, hq⟩ := ihr
    refine ⟨p ++ c :: q, by simp, by simp, hp.append (hq.cons ?_ ?_)⟩
    · exact BinaryOperator.ne_open_of_ofChar? hop
    · exact BinaryOperator.ne_close_of_ofChar? hop
  | negation h ih =>
    obtain ⟨p, rfl, -, hp⟩ := ih
    exact ⟨'-' :: p, rfl, List.cons_ne_nil _ _, hp.cons (by decide) (by decide)⟩
  | root h ih =>
    obtain ⟨p, rfl, -, hp⟩ := ih
    exact ⟨rootSign :: p, rfl, List.cons_ne_nil _ _, hp.cons (by decide) (by decide)⟩
  | @literal content rest value h =>
    exact ⟨'(' :: content ++ [')'], by simp, by simp, (Balanced.of_literal h).enclose⟩
  | @group depth f content rest hliteral h ih =>
    -- the formula takes the content up to the closing parenthesis
    obtain ⟨p, hp, -, hbalanced⟩ := ih
    obtain rfl := List.append_cancel_right hp
    exact ⟨'(' :: content ++ [')'], by simp, by simp, hbalanced.enclose⟩
  | @call depth function c f s s' rest hc hread h ih =>
    obtain ⟨p, rfl, -, hp⟩ := ih
    have hs := Identifier.append_of_read_call hread
    refine ⟨function.name.toList ++ ('(' :: p ++ [')']), ?_, by simp, ?_⟩
    · rw [← hs]
      simp
    · exact (Balanced.of_isLetter RealFunction.isLetter_of_mem_name).append hp.enclose
  | name hc hread =>
    obtain ⟨hne, hletters⟩ := Identifier.isLetter_of_read_name hc hread
    exact ⟨_, (Identifier.append_of_read_name hread).symm, hne, Balanced.of_isLetter hletters⟩
  | @numeral run rest n hne hrun _ _ =>
    exact ⟨run, rfl, hne, Balanced.of_isNumeralChar hrun⟩

/-- Behind a formula the text goes on. -/
theorem Derives.suffix {dialect : Dialect} {X : Precedence} {depth : Nat} {f : Formula}
    {s rest : List Char} (h : Derives dialect X depth f s rest) : rest <:+ s := by
  obtain ⟨p, rfl, -⟩ := h.exists_balanced
  exact List.suffix_append p rest

end ComplexFormula
