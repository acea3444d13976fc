/-
# The leaves of derived formulas

* `leafValue?_of_ofLiteral` : the text of a literal has the value of the literal, also where
  it consists of letters;
* `Derives.readsBack` : the text of every leaf reads back as its value;
* `Derives.isLeafText` : it is a name, or in characters of literals.
-/
import ComplexFormula.Proofs.Grammar
import ComplexFormula.Proofs.PrefixNotation
import ComplexFormula.Proofs.Value

namespace ComplexFormula

/-! ## Values of leaves -/

/-- The text of a literal has the value of the literal. -/
theorem leafValue?_of_ofLiteral {text : String} {value : Complex}
    (h : Complex.ofLiteral text = .ok value) (bindings : Bindings) :
    leafValue? bindings text = some value := by
  unfold leafValue?
  split
  · next hletters =>
    -- letters are a literal only where they are the imaginary unit, which no table binds
    rw [List.all_eq_true] at hletters
    rw [Complex.ofLiteral,
      withoutBlanks_of_forall fun c hc => isBlank_of_isLetter (hletters c hc)] at h
    obtain ⟨rfl, htext⟩ := Complex.eq_unit_of_ofBareLiteral h hletters
    have hunit : text = "i" ∨ text = "I" := by
      rw [← String.toList_inj, ← String.toList_inj]
      exact htext
    rw [Bindings.resolve?, reserved?, if_pos hunit]
    rfl
  · rw [h]
    rfl

/-- A numeral is the literal of its value. -/
theorem ofLiteral_of_numeral {run : List Char} {n : Numeral}
    (hrun : ∀ c ∈ run, Reader.isNumeralChar c = true) (hread : Numeral.read? run = some n) :
    Complex.ofLiteral (String.ofList run) = .ok (.ofReal n.toFloat) := by
  rw [Complex.ofLiteral, String.toList_ofList,
    withoutBlanks_of_forall fun c hc => isBlank_of_isNumeralChar (hrun c hc)]
  exact Complex.ofBareLiteral_of_read? hread

/-- The zero of a sign reads back. -/
theorem Operand.readsBack_zero : ReadsBack (.constant "0" .zero) :=
  leafValue?_of_ofLiteral (by decide +kernel)

/-- **The leaves of derived formulas read back.** -/
theorem Derives.readsBack {dialect : Dialect} {X : Precedence} {depth : Nat} {f : Formula}
    {s rest : List Char} (h : Derives dialect X depth f s rest) :
    f.AllLeaves Operand.ReadsBack := by
  induction h with
  | operand hX h ih => exact ih
  | chain hX hleft hop hright ihl ihr => exact ⟨ihl, ihr⟩
  | negation h ih => exact ih
  | root h ih => exact ih
  | literal h => exact leafValue?_of_ofLiteral h
  | group hliteral h ih => exact ih
  | call hc hread h ih => exact ih
  | name hc hread =>
    change (String.ofList _).toList.all isLetter = true
    rw [String.toList_ofList, List.all_eq_true]
    exact (Identifier.isLetter_of_read_name hc hread).2
  | numeral hne hrun hmaximal hread =>
    exact leafValue?_of_ofLiteral (ofLiteral_of_numeral hrun hread)

/-! ## Texts of leaves -/

/-- What the text of a leaf may be: not empty, and in letters or in characters of literals. -/
def IsLeafText (text : String) : Prop :=
  text ≠ "" ∧ ∃ p ∈ [isLetter, Complex.isLiteralChar], ∀ c ∈ text.toList, p c = true

namespace IsLeafText

/-- A text in letters is that of a leaf. -/
theorem of_letters {s : List Char} (hne : s ≠ []) (hs : ∀ c ∈ s, isLetter c = true) :
    IsLeafText (String.ofList s) := by
  refine ⟨fun hempty => hne (String.ofList_eq_empty_iff.1 hempty), isLetter, ?_, ?_⟩
  · exact List.mem_cons_self
  · rwa [String.toList_ofList]

/-- A text in characters of literals is that of a leaf. -/
theorem of_literalChars {s : List Char} (hne : s ≠ [])
    (hs : ∀ c ∈ s, Complex.isLiteralChar c = true) : IsLeafText (String.ofList s) := by
  refine ⟨fun hempty => hne (String.ofList_eq_empty_iff.1 hempty), Complex.isLiteralChar, ?_, ?_⟩
  · exact List.mem_cons_of_mem _ List.mem_cons_self
  · rwa [String.toList_ofList]

/-- The text of a zero is that of a leaf. -/
theorem zero : IsLeafText "0" :=
  of_literalChars (List.cons_ne_nil '0' []) (List.all_eq_true.1 (by decide))

/-- There is no other character in the text of a leaf. -/
theorem not_mem {text : String} (h : IsLeafText text) {c : Char} (hletter : isLetter c = false)
    (hliteral : Complex.isLiteralChar c = false) : c ∉ text.toList := by
  obtain ⟨-, p, hp, hclass⟩ := h
  intro hc
  have hpc := hclass c hc
  simp only [List.mem_cons, List.not_mem_nil, or_false] at hp
  rcases hp with rfl | rfl
  · rw [hletter] at hpc
    exact Bool.false_ne_true hpc
  · rw [hliteral] at hpc
    exact Bool.false_ne_true hpc

/-- The text of a leaf is plain. -/
theorem isPlain {text : String} (h : IsLeafText text) : Tree.IsPlain text := by
  refine ⟨h.1, fun c hc => ⟨?_, ?_, ?_⟩⟩
  · exact ne_of_mem_of_not_mem hc (h.not_mem (by decide) (by decide))
  · exact ne_of_mem_of_not_mem hc (h.not_mem (by decide) (by decide))
  · exact ne_of_mem_of_not_mem hc (h.not_mem (by decide) (by decide))

end IsLeafText

/-- The text of a literal without blanks is that of a leaf. -/
theorem isLeafText_literalText {content : List Char} {value : Complex}
    (h : Complex.ofLiteral (literalText content) = .ok value)
    (hblank : ∀ c ∈ content, isBlank c = false) : IsLeafText (literalText content) := by
  rw [Complex.ofLiteral, literalText, String.toList_ofList, withoutBlanks_of_forall
    fun c hc => hblank c (List.mem_filter.1 hc).1] at h
  exact .of_literalChars (Complex.ne_nil_of_ofBareLiteral h)
    (Complex.isLiteralChar_of_ofBareLiteral h)

/-- A numeral is in characters of literals. -/
theorem isLiteralChar_of_isNumeralChar {c : Char} (hc : Reader.isNumeralChar c = true) :
    Complex.isLiteralChar c = true := by
  rw [Reader.isNumeralChar, Bool.or_eq_true] at hc
  rw [Complex.isLiteralChar, Numeral.isDecimalChar]
  rcases hc with hc | hc <;> simp [hc]

/-- **The texts of the leaves of formulas without blanks.** -/
theorem Derives.isLeafText {dialect : Dialect} {X : Precedence} {depth : Nat} {f : Formula}
    {s rest : List Char} (h : Derives dialect X depth f s rest)
    (hs : ∀ c ∈ s, isBlank c = false) :
    f.AllLeaves fun operand => IsLeafText operand.text := by
  induction h with
  | operand hX h ih => exact ih hs
  | chain hX hleft hop hright ihl ihr =>
    obtain ⟨p, rfl, -⟩ := hleft.exists_balanced
    refine ⟨ihl hs, ihr fun c hc => hs c ?_⟩
    exact List.mem_append_right p (List.mem_cons_of_mem _ hc)
  | negation h ih => exact ih fun c hc => hs c (List.mem_cons_of_mem _ hc)
  | root h ih => exact ih fun c hc => hs c (List.mem_cons_of_mem _ hc)
  | literal h => exact isLeafText_literalText h fun c hc => hs c (by simp [hc])
  | group hliteral h ih => exact ih fun c hc => hs c (List.mem_cons_of_mem _ hc)
  | call hc hread h ih =>
    have hinside := (List.suffix_cons _ _).trans (Identifier.suffix_of_read_call hread)
    exact ih fun c hc => hs c (hinside.subset hc)
  | name hc hread =>
    obtain ⟨hne, hletters⟩ := Identifier.isLetter_of_read_name hc hread
    exact .of_letters hne hletters
  | numeral hne hrun hmaximal hread =>
    exact .of_literalChars hne fun c hc => isLiteralChar_of_isNumeralChar (hrun c hc)

/-- The leaves of the tree have such texts as well. -/
theorem Derives.isLeafText_tree {dialect : Dialect} {X : Precedence} {depth : Nat} {f : Formula}
    {s rest : List Char} (h : Derives dialect X depth f s rest)
    (hs : ∀ c ∈ s, isBlank c = false) : f.tree.AllLeaves IsLeafText :=
  Formula.allLeaves_tree IsLeafText.zero (h.isLeafText hs)

end ComplexFormula
