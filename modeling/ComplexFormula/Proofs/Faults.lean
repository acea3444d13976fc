/-
# What faults say of a text

A reason why a text is malformed names a position in the normal form, and says what is wrong
there. Reading breaks off deep inside groups and calls, behind formulas that were complete; what
it says is true of the text as a whole, because a formula that was read has closed all the
parentheses that it opened.

* `ClosedAt` : which parenthesis closes which;
* `SyntaxError.HoldsIn` : what a reason says of a text;
* `Fails.holdsIn` : where reading breaks off, the reason is true of the text;
* `Calculator.holdsIn_of_evaluate` : so it is when an evaluation fails.
-/
import ComplexFormula.Proofs.Evaluation
import ComplexFormula.Proofs.Positional.Text
import ComplexFormula.Proofs.Unknown

namespace ComplexFormula

open Reader

open Positional (slice? place place_cons place_append place_lt_place getElem?_place
  slice?_place le_of_slice? exists_place_of_getElem?)

/-! ## Parentheses by their positions -/

/-- A parenthesis at one position is closed by the one at another position: the text between
them is balanced. -/
structure ClosedAt (s : List Char) (opening closing : Nat) : Prop where
  opens : s[opening]? = some '('
  closes : s[closing]? = some ')'
  balanced : ∃ content, slice? s (opening + 1) closing = some content ∧ Balanced content

section

variable {whole inside : List Char}

/-- A balanced content in parentheses. -/
theorem closedAt_place {content back : List Char}
    (h : '(' :: (content ++ ')' :: back) <:+ whole) (hcontent : Balanced content) :
    ClosedAt whole (place whole ('(' :: (content ++ ')' :: back)))
      (place whole (')' :: back)) := by
  have hinside : content ++ ')' :: back <:+ whole := (List.suffix_cons _ _).trans h
  refine ⟨getElem?_place h, getElem?_place ((List.suffix_append _ _).trans hinside), content,
    ?_, hcontent⟩
  rw [place_cons h]
  exact slice?_place hinside rfl

/-- What is closed has a balanced content. -/
theorem ClosedAt.exists_content {q : Nat} (hs : '(' :: inside <:+ whole)
    (h : ClosedAt whole (place whole ('(' :: inside)) q) :
    ∃ content back, inside = content ++ ')' :: back ∧ Balanced content := by
  obtain ⟨content, hslice, hbalanced⟩ := h.balanced
  obtain ⟨back, hback, rfl⟩ := exists_place_of_getElem? h.closes
  have hinside := (List.suffix_cons _ inside).trans hs
  rw [place_cons hs] at hslice
  obtain ⟨content', rfl⟩ : ')' :: back <:+ inside := by
    refine List.suffix_of_suffix_length_le hback hinside ?_
    have hle := (le_of_slice? hslice).1
    have := hinside.length_le
    have := hback.length_le
    rw [place, place] at hle
    omega
  rw [slice?_place hinside rfl] at hslice
  obtain rfl := Option.some.inj hslice
  exact ⟨content', back, rfl, hbalanced⟩

end

/-! ## What a reason says -/

/-- A run of digits and points that goes on neither before nor behind. -/
structure IsNumeralRun (before run behind : List Char) : Prop where
  ne_nil : run ≠ []
  chars : ∀ c ∈ run, isNumeralChar c = true
  starts : ∀ c ∈ before.getLast?, isNumeralChar c = false
  ends : ∀ c ∈ behind.head?, isNumeralChar c = false

namespace SyntaxError

/-- **What a reason says of a text.** A parenthesis that is not closed is one, and none closes
it. A text that is left is not empty and goes on up to the end, or up to the parenthesis that
closes an earlier one; in the latter case it does not begin with a closing one itself. Where an
operand should begin, the text ends, or stands a character with which no operand begins, or a
run of digits and points that is no decimal. -/
def HoldsIn (dialect : Dialect) (s : List Char) : SyntaxError → Prop
  | unclosedParenthesis p => s[p]? = some '(' ∧ ∀ q, ¬ ClosedAt s p q
  | unexpectedText p text =>
    text ≠ "" ∧
      (slice? s p s.length = some text.toList ∨
        ∃ o q, o < p ∧ ClosedAt s o q ∧ slice? s p q = some text.toList ∧ s[p]? ≠ some ')')
  | numeralExpected p found =>
    p = s.length ∧ found = "" ∨
      (∃ c, s[p]? = some c ∧ found = String.ofList [c] ∧
        isLetter c = false ∧ isNumeralChar c = false ∧ c ≠ '(' ∧ c ≠ rootSign) ∨
      ∃ before run behind, s = before ++ run ++ behind ∧ p = before.length ∧
        found = String.ofList run ∧ IsNumeralRun before run behind ∧ ¬ Numeral.IsDecimal run
  | nestedTooDeep limit => limit = dialect.nestingLimit

/-- The position that a reason names. -/
def position? : SyntaxError → Option Nat
  | unclosedParenthesis p | unexpectedText p _ | numeralExpected p _ => some p
  | nestedTooDeep _ => none

/-- **No position is behind the end of the text.** -/
theorem HoldsIn.position_le {dialect : Dialect} {s : List Char} {reason : SyntaxError}
    (h : reason.HoldsIn dialect s) : ∀ p ∈ reason.position?, p ≤ s.length := by
  intro p hp
  cases reason with
  | nestedTooDeep limit => simp [position?] at hp
  | unclosedParenthesis position =>
    obtain rfl := Option.some.inj hp
    exact (List.getElem?_eq_some_iff.1 h.1).1.le
  | unexpectedText position text =>
    obtain rfl := Option.some.inj hp
    rcases h.2 with hslice | ⟨o, q, -, -, hslice, -⟩
    · exact (le_of_slice? hslice).1
    · exact (le_of_slice? hslice).1.trans (le_of_slice? hslice).2
  | numeralExpected position found =>
    obtain rfl := Option.some.inj hp
    rcases h with ⟨hend, -⟩ | ⟨c, hat, -⟩ | ⟨before, run, behind, hs, hstart, -⟩
    · exact hend.le
    · exact (List.getElem?_eq_some_iff.1 hat).1.le
    · rw [hs, hstart, List.append_assoc, List.length_append]
      exact Nat.le_add_right _ _

end SyntaxError

/-! ## Where reading breaks off -/

section

variable {dialect : Dialect} {whole inside s : List Char}

/-- A parenthesis that is not closed. -/
theorem holdsIn_of_unclosed (hs : '(' :: inside <:+ whole) (h : closingIndex? inside = none) :
    (SyntaxError.unclosedParenthesis ((Page.ofText dialect whole).position inside - 1)).HoldsIn
      dialect whole := by
  have hposition : (Page.ofText dialect whole).position inside - 1
      = place whole ('(' :: inside) := by
    show place whole inside - 1 = _
    rw [← place_cons hs, Nat.add_sub_cancel]
  rw [hposition]
  refine ⟨getElem?_place hs, fun q hq => ?_⟩
  obtain ⟨content, back, rfl, hcontent⟩ := hq.exists_content hs
  rw [closingIndex?_eq_some_iff.2 ⟨content, back, rfl, hcontent, rfl⟩] at h
  simp at h

/-- The end of a group or a call, behind a formula that takes a balanced text. -/
theorem holdsIn_of_close {q rest : List Char} {f : Formula} {fault : Fault}
    (hs : '(' :: (q ++ rest) <:+ whole) (hq : Balanced q)
    (h : close (Page.ofText dialect whole) (q ++ rest) f rest = .error fault) :
    fault.reason.HoldsIn dialect whole := by
  rcases close_eq_error hq h with ⟨hindex, rfl⟩ | ⟨u, back, rfl, hhead, hcontent, rfl⟩
  · exact holdsIn_of_unclosed hs hindex
  · have hopen : '(' :: (q ++ u ++ ')' :: back) <:+ whole := by rwa [List.append_assoc]
    have hrest : u ++ ')' :: back <:+ whole :=
      (List.suffix_append q _).trans ((List.suffix_cons _ _).trans hs)
    have hne : u ≠ [] := by
      rintro rfl
      exact hhead rfl
    refine ⟨by simpa using hne, Or.inr ⟨_, _, ?_, closedAt_place hopen hcontent, ?_, ?_⟩⟩
    · refine place_lt_place hopen ?_
      simp only [List.length_cons, List.length_append]
      omega
    · rw [String.toList_ofList]
      exact slice?_place hrest rfl
    · show whole[place whole (u ++ ')' :: back)]? ≠ _
      rwa [getElem?_place hrest]

/-- A rest of a text at which an operand should begin: no digit or point stands before it. -/
def AtOperand (whole s : List Char) : Prop :=
  ∃ before, before ++ s = whole ∧ ∀ c ∈ before.getLast?, isNumeralChar c = false

/-- It is a rest of the text. -/
theorem AtOperand.suffix (h : AtOperand whole s) : s <:+ whole := by
  obtain ⟨before, rfl, -⟩ := h
  exact List.suffix_append before s

/-- An operand begins behind any other character. -/
theorem AtOperand.behind {c : Char} {s' : List Char} (h : AtOperand whole s)
    (hsuffix : c :: s' <:+ s) (hc : isNumeralChar c = false) : AtOperand whole s' := by
  obtain ⟨before, rfl, -⟩ := h
  obtain ⟨p, rfl⟩ := hsuffix
  refine ⟨before ++ p ++ [c], by simp, fun x hx => ?_⟩
  rw [List.getLast?_concat] at hx
  obtain rfl := Option.some.inj hx
  exact hc

/-- No numeral stands where an operand should begin. -/
theorem holdsIn_of_readNumeral {fault : Fault} (hs : AtOperand whole s)
    (hroot : s.head? ≠ some rootSign) (hopen : s.head? ≠ some '(')
    (hletter : ∀ c ∈ s.head?, isLetter c = false)
    (h : readNumeral (Page.ofText dialect whole) s = .error fault) :
    fault.reason.HoldsIn dialect whole := by
  unfold readNumeral at h
  simp only at h
  split at h
  · next hempty =>
    obtain rfl := Except.error.inj h
    cases s with
    | nil => exact Or.inl ⟨rfl, rfl⟩
    | cons c s =>
      have hnumeral : isNumeralChar c = false := by
        by_contra hc
        rw [Bool.not_eq_false] at hc
        rw [List.takeWhile_cons_of_pos hc] at hempty
        simp at hempty
      exact Or.inr (Or.inl ⟨c, getElem?_place hs.suffix, rfl, hletter c rfl, hnumeral,
        fun hc => hopen (congrArg some hc), fun hc => hroot (congrArg some hc)⟩)
  · next hempty =>
    split at h
    · simp at h
    · next hread =>
      obtain rfl := Except.error.inj h
      obtain ⟨before, rfl, hbefore⟩ := hs
      have hsplit : s.takeWhile isNumeralChar ++ s.dropWhile isNumeralChar = s :=
        List.takeWhile_append_dropWhile
      refine Or.inr (Or.inr ⟨before, s.takeWhile isNumeralChar, s.dropWhile isNumeralChar, ?_,
        place_append before s, rfl, ⟨by simpa using hempty, ?_, hbefore, ?_⟩, ?_⟩)
      · rw [List.append_assoc, hsplit]
      · exact fun c hc => List.mem_takeWhile_imp hc
      · exact isNumeralChar_of_head?_dropWhile s
      · intro hdecimal
        obtain ⟨n, hn⟩ := Numeral.exists_read?_iff.2 hdecimal
        rw [hread] at hn
        simp at hn

/-- **Where reading breaks off, the reason is true of the whole text.** -/
theorem Fails.holdsIn {X : Precedence} {levels : Nat} {fault : Fault}
    (h : Fails (Page.ofText dialect whole) X levels fault s) (hs : AtOperand whole s) :
    fault.reason.HoldsIn dialect whole := by
  induction h with
  | operand hX hsign h ih => exact ih hs
  | chain hX hleft hdepth hop hright ih =>
    exact ih (hs.behind hleft.suffix (isNumeralChar_of_ofChar? hop))
  | negation h ih => exact ih (hs.behind List.suffix_rfl (by decide))
  | root h ih => exact ih (hs.behind List.suffix_rfl (by decide))
  | rootTooDeep | groupTooDeep | callTooDeep => exact rfl
  | unclosed hindex => exact holdsIn_of_unclosed hs.suffix hindex
  | group hcontent hliteral h ih => exact ih (hs.behind List.suffix_rfl (by decide))
  | groupEnd hcontent hliteral h hdepth hclose =>
    obtain ⟨q, hq, -, hbalanced⟩ := h.exists_balanced
    rw [hq] at hclose
    exact holdsIn_of_close (hq ▸ hs.suffix) hbalanced hclose
  | call hc hread h ih =>
    exact ih (hs.behind (Identifier.suffix_of_read_call hread) (by decide))
  | callEnd hc hread h hdepth hclose =>
    obtain ⟨q, rfl, -, hbalanced⟩ := h.exists_balanced
    exact holdsIn_of_close ((Identifier.suffix_of_read_call hread).trans hs.suffix) hbalanced
      hclose
  | numeral hroot hopen hletter hread =>
    exact holdsIn_of_readNumeral hs hroot hopen hletter hread

/-- Why a text is no formula. -/
theorem Formula.holdsIn_of_read {fault : Fault} (h : Formula.read dialect s = .error fault) :
    fault.reason.HoldsIn dialect s := by
  rcases fails_of_read_eq_error h with hfails | ⟨depth, f, rest, -, hderives, hne, rfl⟩
  · exact hfails.holdsIn ⟨[], rfl, nofun⟩
  · refine ⟨by simpa using hne, Or.inl ?_⟩
    rw [String.toList_ofList]
    exact slice?_place hderives.suffix (List.append_nil rest)

end

/-! ## Evaluations that fail -/

/-- Why a text is malformed. -/
theorem Evaluation.holdsIn_of_error {dialect : Dialect} {bindings : Bindings} {text : String}
    {reason : SyntaxError} (h : Evaluation.of dialect bindings text = .error (.malformed reason)) :
    reason.HoldsIn dialect (normalize dialect text).toList := by
  rw [normalize, String.toList_ofList]
  rcases Formula.readAndEvaluate_eq_error (of_eq_error_iff.1 h) with h | ⟨fault, hread, h⟩
  · cases h
  · obtain rfl := FormulaError.malformed.inj h
    exact Formula.holdsIn_of_read hread

/-- **Positions tell the truth.** Where an evaluation fails because the text is malformed, the
reason is true of the normal form, and its position is not behind the end. -/
theorem Calculator.holdsIn_of_evaluate {c : Calculator} {bindings : Bindings} {text : String}
    {reason : SyntaxError} (h : c.evaluate bindings text = .error (.malformed reason)) :
    reason.HoldsIn c.dialect (normalize c.dialect text).toList ∧
      ∀ p ∈ reason.position?, p ≤ (normalize c.dialect text).toList.length := by
  have hholds := Evaluation.holdsIn_of_error (evaluate_eq_error_iff.1 h)
  exact ⟨hholds, hholds.position_le⟩

/-- A text that is left in the argument of a call, up to the end of the call. -/
theorem Calculator.holdsIn_of_evaluate_left :
    Calculator.evaluate {} .empty "sin(2!)"
        = .error (.malformed (.unexpectedText 5 "!")) ∧
      (SyntaxError.unexpectedText 5 "!").HoldsIn {} (normalize {} "sin(2!)").toList ∧
      ∀ p ∈ (SyntaxError.unexpectedText 5 "!").position?,
        p ≤ (normalize {} "sin(2!)").toList.length := by
  have h : Calculator.evaluate {} .empty "sin(2!)"
      = .error (.malformed (.unexpectedText 5 "!")) := by decide +kernel
  exact ⟨h, holdsIn_of_evaluate h⟩

end ComplexFormula
