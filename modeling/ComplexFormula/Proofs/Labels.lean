/-
# The labels of drawings

The drawing of a computation shows a value at each of its leaves. Which value that is has been
settled twice: when the formula was read, by whether an operand is a name, and when the drawing
is made, by whether the text of the leaf is bound. The two agree unless the text of a literal
is bound as if it were a name.

* `Drawing.leafLabels` : the labels of the leaves of a drawing;
* `Formula.leaves_tree` : which operands a tree shows;
* `Operand.shownAs_leafLabel` : when the label of an operand shows its value;
* `Calculator.leafLabels_of_evaluate` : the labels of the leaves after a success.
-/
import Mathlib
import ComplexFormula.Proofs.Decimal.Layout
import ComplexFormula.Proofs.Evaluation

namespace ComplexFormula

/-! ## The leaves of a drawing -/

namespace Drawing

mutual

/-- The labels of the leaves of a tree, from left to right. -/
def leafLabels : Drawing → List String
  | node label [] => [label]
  | node _ (child :: rest) => leafLabelsAll (child :: rest)

/-- The labels of the leaves of some trees. -/
def leafLabelsAll : List Drawing → List String
  | [] => []
  | tree :: rest => leafLabels tree ++ leafLabelsAll rest

end

end Drawing

/-- The drawing of a syntax tree has the labels of its leaves. -/
theorem Tree.leafLabels_drawing (bindings : Bindings) (t : Tree) :
    (t.drawing bindings).leafLabels = t.leaves.map (leafLabel bindings) := by
  rw [drawing_eq_image]
  induction t with
  | leaf content => rfl
  | unary op operand ih =>
    rw [image, Drawing.leafLabels, Drawing.leafLabelsAll, Drawing.leafLabelsAll, ih,
      List.append_nil, Term.leaves]
  | binary op left right ihl ihr =>
    rw [image, Drawing.leafLabels, Drawing.leafLabelsAll, Drawing.leafLabelsAll,
      Drawing.leafLabelsAll, ihl, ihr, List.append_nil, Term.leaves, List.map_append]

/-- The result above the tree adds no leaf. -/
theorem Tree.leafLabels_execution (bindings : Bindings) (result : Complex) (t : Tree) :
    (execution bindings result t).leafLabels = t.leaves.map (leafLabel bindings) := by
  rw [execution, Drawing.leafLabels, Drawing.leafLabelsAll, Drawing.leafLabelsAll,
    leafLabels_drawing, List.append_nil]

/-! ## The operands that a tree shows -/

namespace Formula

/-- The operands that the tree of a formula shows, from left to right: its own, and a zero
before what a sign stands before. -/
def shownOperands : Formula → List Operand
  | .leaf operand => [operand]
  | .unary .negation f => .constant "0" .zero :: shownOperands f
  | .unary (.operation _) f => shownOperands f
  | .binary _ f g => shownOperands f ++ shownOperands g

/-- The leaves of the tree are the texts of the operands that it shows. -/
theorem leaves_tree (f : Formula) : f.tree.leaves = f.shownOperands.map Operand.text := by
  induction f with
  | leaf operand =>
    rw [tree_leaf]
    rfl
  | unary op f ih =>
    cases op with
    | negation =>
      rw [tree_negation, Term.leaves, ih]
      rfl
    | operation op => rw [tree_operation, Term.leaves, ih, shownOperands]
  | binary op f g ihl ihr =>
    rw [tree_binary, Term.leaves, ihl, ihr, shownOperands, List.map_append]

/-- What holds of the operands of a formula, and of zero, holds of those that are shown. -/
theorem forall_mem_shownOperands {P : Operand → Prop} (hzero : P (.constant "0" .zero))
    {f : Formula} (hf : f.AllLeaves P) : ∀ operand ∈ f.shownOperands, P operand := by
  induction f with
  | leaf operand => exact List.forall_mem_singleton.2 hf
  | unary op f ih =>
    cases op with
    | negation => exact List.forall_mem_cons.2 ⟨hzero, ih hf⟩
    | operation op => exact ih hf
  | binary op f g ihl ihr => exact List.forall_mem_append.2 ⟨ihl hf.1, ihr hf.2⟩

end Formula

/-! ## The characters of canonical forms -/

/-- The characters of canonical forms. -/
def isCanonicalChar (c : Char) : Bool :=
  c.isDigit || c == '-' || c == '+' || c == '.' || c == ' ' || c == 'i' || c == 'n' || c == 'f' ||
    c == 'N' || c == 'a'

namespace Double

/-- Digits are characters of canonical forms. -/
theorem isCanonicalChar_of_isDigits {s : List Char} (h : Numeral.IsDigits s) :
    ∀ c ∈ s, isCanonicalChar c = true := by
  intro c hc
  simp [isCanonicalChar, h c hc]

/-- So is a sign. -/
theorem isCanonicalChar_signChars (negative : Bool) :
    ∀ c ∈ signChars negative, isCanonicalChar c = true := by
  cases negative <;> simp [signChars, isCanonicalChar]

/-- So are those of a number with a fixed count of decimal places. -/
theorem isCanonicalChar_fixed (places : Nat) (x : Double) :
    ∀ c ∈ x.fixed places, isCanonicalChar c = true := by
  cases x with
  | nan => simp [fixed, isCanonicalChar]
  | infinite negative =>
    rw [fixed, List.forall_mem_append]
    exact ⟨isCanonicalChar_signChars negative, by simp [isCanonicalChar]⟩
  | finite negative magnitude =>
    simp only [fixed, List.forall_mem_append, List.forall_mem_cons]
    exact ⟨⟨isCanonicalChar_signChars _, isCanonicalChar_of_isDigits (isDigits_decimalDigits _)⟩,
      by decide, isCanonicalChar_of_isDigits (isDigits_paddedDigits _ _)⟩

end Double

/-- **The characters of a canonical form.** -/
theorem Complex.isCanonicalChar_canonical (z : Complex) :
    ∀ c ∈ z.canonical.toList, isCanonicalChar c = true := by
  have hpart := Double.isCanonicalChar_fixed canonicalPlaces
  have hunit : ∀ c ∈ ['i'], isCanonicalChar c = true := by simp [isCanonicalChar]
  rw [canonical, String.toList_ofList]
  unfold canonicalChars
  simp only
  split
  · exact hpart _
  · split
    · split
      · exact hunit
      · split
        · simp [isCanonicalChar]
        · exact List.forall_mem_append.2 ⟨hpart _, hunit⟩
    · split
      all_goals
        simp only [List.forall_mem_append]
        exact ⟨⟨⟨hpart _, by simp [isCanonicalChar]⟩, hpart _⟩, hunit⟩

/-- No other character is in a canonical form. -/
theorem Complex.not_mem_canonical {c : Char} (hc : isCanonicalChar c = false) (z : Complex) :
    c ∉ z.canonical.toList := by
  intro hmem
  rw [z.isCanonicalChar_canonical c hmem] at hc
  exact absurd hc (by decide)

/-! ## The label of an operand -/

namespace Operand

variable {bindings : Bindings} {operand : Operand} {label : String}

/-- A label shows the value that an operand was evaluated to, alone or behind a name. -/
def ShownAs (bindings : Bindings) (operand : Operand) (label : String) : Prop :=
  ∃ value, operand.evaluate bindings = .ok value ∧
    (label = value.canonical ∨
      operand.text.toList.all isLetter = true ∧
        label = operand.text ++ " = " ++ value.canonical)

/-- A label shows the value that is bound to the text of an operand, which is no name. -/
def OvershadowedAs (bindings : Bindings) (operand : Operand) (label : String) : Prop :=
  operand.text.toList.all isLetter = false ∧
    ∃ value, bindings.get? operand.text = some value ∧
      label = operand.text ++ " = " ++ value.canonical

/-- What is shown for a bound text is not what is shown for a literal. -/
theorem OvershadowedAs.not_shownAs (h : operand.OvershadowedAs bindings label) :
    ¬ operand.ShownAs bindings label := by
  obtain ⟨hletters, bound, -, rfl⟩ := h
  rintro ⟨value, -, hlabel | ⟨hname, -⟩⟩
  · refine value.not_mem_canonical (c := '=') (by decide) ?_
    rw [← hlabel]
    simp
  · rw [hletters] at hname
    exact Bool.false_ne_true hname

/-- A text that is not all letters is not reserved. -/
theorem resolve?_of_not_letters (h : operand.text.toList.all isLetter = false) :
    bindings.resolve? operand.text = bindings.get? operand.text := by
  have hreserved : ¬ (operand.text = "i" ∨ operand.text = "I") := by
    rintro (htext | htext)
    · rw [htext] at h
      exact absurd h (by decide)
    · rw [htext] at h
      exact absurd h (by decide)
  rw [Bindings.resolve?, reserved?, if_neg hreserved, Option.none_or]

/-- An operand whose name is bound has a value. -/
theorem exists_evaluate (h : operand.IsBound bindings) :
    ∃ value, operand.evaluate bindings = .ok value := by
  cases operand with
  | constant text value => exact ⟨value, rfl⟩
  | name text =>
    obtain ⟨value, hvalue⟩ := Option.isSome_iff_exists.1 h
    exact ⟨value, by rw [evaluate, hvalue]⟩

/-- **The label of an operand shows its value**, unless the text of a literal is bound. -/
theorem shownAs_leafLabel (hreads : operand.ReadsBack) (hbound : operand.IsBound bindings)
    (h : operand.text.toList.all isLetter = true ∨ bindings.get? operand.text = none) :
    operand.ShownAs bindings (Tree.leafLabel bindings operand.text) := by
  obtain ⟨value, hvalue⟩ := exists_evaluate hbound
  have hleaf := (evaluate_eq_ok_iff hreads).1 hvalue
  refine ⟨value, hvalue, ?_⟩
  rw [leafValue?] at hleaf
  cases hletters : operand.text.toList.all isLetter with
  | true =>
    rw [hletters, if_pos rfl] at hleaf
    rw [Tree.leafLabel, hleaf]
    exact Or.inr ⟨rfl, rfl⟩
  | false =>
    rw [hletters] at h hleaf
    have hnone := h.resolve_left Bool.false_ne_true
    rw [if_neg Bool.false_ne_true] at hleaf
    rw [Tree.leafLabel, resolve?_of_not_letters hletters, hnone]
    cases hliteral : Complex.ofLiteral operand.text with
    | error reason => simp [hliteral, Except.toOption] at hleaf
    | ok literal =>
      rw [hliteral] at hleaf
      rw [Option.some.inj hleaf]
      exact Or.inl rfl

/-- The label of an operand whose text is bound and no name shows what is bound. -/
theorem overshadowedAs_leafLabel (hletters : operand.text.toList.all isLetter = false)
    (hbound : bindings.get? operand.text ≠ none) :
    operand.OvershadowedAs bindings (Tree.leafLabel bindings operand.text) := by
  obtain ⟨value, hvalue⟩ := Option.ne_none_iff_exists'.1 hbound
  refine ⟨hletters, value, hvalue, ?_⟩
  rw [Tree.leafLabel, resolve?_of_not_letters hletters, hvalue]

end Operand

/-! ## The labels of a success -/

namespace Calculator

/-- **The labels of the leaves after a success.** Each label shows the value of its operand, or
what is bound to the text of an operand that is no name. So all labels show the values that the
operands were evaluated to exactly if no literal is bound as if it were a name. -/
theorem leafLabels_of_evaluate {c c' : Calculator} {bindings : Bindings} {text : String}
    (h : c.evaluate bindings text = .ok c') :
    ∃ depth f d, Derives c.dialect .sum depth f (normalChars c.dialect text.toList) [] ∧
      c'.tree? = some f.tree ∧ c'.drawing? = some d ∧
      List.Forall₂ (fun operand label => operand.ShownAs bindings label ∨
        operand.OvershadowedAs bindings label) f.shownOperands d.leafLabels ∧
      (List.Forall₂ (Operand.ShownAs bindings) f.shownOperands d.leafLabels ↔
        ∀ content ∈ f.tree.leaves, content.toList.all isLetter = true ∨
          bindings.get? content = none) := by
  obtain ⟨e, he, rfl⟩ := evaluate_eq_ok_iff.1 h
  obtain ⟨depth, f, z, -, hderives, hz, rfl⟩ := Evaluation.of_eq_ok_iff.1 he
  have hbound := ((Formula.exists_hasValue_iff hderives.readsBack).1 ⟨z, hz⟩).1
  have hlabels : (Tree.execution bindings z f.tree).leafLabels
      = f.shownOperands.map fun operand => Tree.leafLabel bindings operand.text := by
    rw [Tree.leafLabels_execution, Formula.leaves_tree, List.map_map]
    rfl
  have hshown : ∀ operand ∈ f.shownOperands,
      operand.text.toList.all isLetter = true ∨ bindings.get? operand.text = none →
        operand.ShownAs bindings (Tree.leafLabel bindings operand.text) := by
    intro operand hmem
    refine Operand.shownAs_leafLabel ?_ ?_
    · exact Formula.forall_mem_shownOperands Operand.readsBack_zero hderives.readsBack _ hmem
    · exact Formula.forall_mem_shownOperands trivial hbound _ hmem
  have hovershadowed : ∀ operand : Operand,
      ¬ (operand.text.toList.all isLetter = true ∨ bindings.get? operand.text = none) →
        operand.OvershadowedAs bindings (Tree.leafLabel bindings operand.text) := by
    intro operand hnot
    obtain ⟨hletters, hget⟩ := not_or.1 hnot
    exact Operand.overshadowedAs_leafLabel (Bool.eq_false_iff.2 hletters) hget
  refine ⟨depth, f, _, hderives, rfl, rfl, ?_, ?_⟩
  · rw [Evaluation.drawing, hlabels, List.forall₂_map_right_iff, List.forall₂_same]
    intro operand hmem
    exact (em _).imp (hshown operand hmem) (hovershadowed operand)
  · rw [Evaluation.drawing, hlabels, List.forall₂_map_right_iff, List.forall₂_same,
      Formula.leaves_tree, List.forall_mem_map]
    refine forall₂_congr fun operand hmem => ⟨fun hlabel => ?_, hshown operand hmem⟩
    exact by_contra fun hnot => (hovershadowed operand hnot).not_shownAs hlabel

/-- The labels of a product with a sign show the values of its leaves. -/
theorem leafLabels_of_evaluate_sign :
    ∃ (f : Formula) (d : Drawing), f.tree = .binary .mul (Tree.negation (.leaf "2")) (.leaf "x") ∧
      (evaluate {} (.ofList [("x", .unit)]) "-2x").toOption.bind drawing? = some d ∧
      List.Forall₂ (Operand.ShownAs (.ofList [("x", .unit)])) f.shownOperands d.leafLabels := by
  have hvalue : evaluate {} (.ofList [("x", .unit)]) "-2x" =
      .ok ⟨{}, some ⟨normalize {} "-2x", .ofList [("x", .unit)],
        .binary .mul (Tree.negation (.leaf "2")) (.leaf "x"), ⟨0, -2⟩⟩⟩ := by
    decide +kernel
  obtain ⟨depth, f, d, -, htree, hd, -, hlabels⟩ := leafLabels_of_evaluate hvalue
  replace htree := Option.some.inj htree
  refine ⟨f, d, htree.symm, ?_, hlabels.2 ?_⟩
  · rw [hvalue]
    exact hd
  · rw [← htree]
    decide +kernel

/-- The label of a numeral whose text is bound as if it were a name. -/
theorem leafLabels_numeral_bound :
    (evaluate {} (.ofList [("2", ⟨5, 0⟩)]) "2").toOption.bind value? = some ⟨2, 0⟩ ∧
      ((evaluate {} (.ofList [("2", ⟨5, 0⟩)]) "2").toOption.bind drawing?).map
        Drawing.leafLabels = some ["2 = 5.0000"] ∧
      "2".toList.all isLetter = false := by
  decide +kernel

end Calculator

end ComplexFormula
