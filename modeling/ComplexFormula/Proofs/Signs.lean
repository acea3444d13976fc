/-
# Signs and differences from zero

A sign is shown as a difference from `0`, so formulas with the same tree need not be the same:
one may have a sign where another one has a difference that was written out. Their values are
computed in two ways, which differ in the sign of the result where zero is taken from a positive
zero. The operations above pass that sign on or hide it.

* `Formula.SameTree` : how formulas with the same tree differ;
* `Formula.Exposed` : the operands that one formula has behind a sign and another one in a
  difference from zero, as far as the operations above them show the signs of zeros;
* `Formula.SameTree.agree` : the values of formulas with the same tree;
* `Calculator.value_of_sameTree` : the values of texts with the same tree.
-/
import Mathlib
import ComplexFormula.Proofs.Calculator
import ComplexFormula.Proofs.SameWorth

namespace ComplexFormula

/-! ## Formulas with the same tree -/

namespace Formula

/-- Formulas that are shown alike: one may have a sign where the other one has a difference
from a leaf that reads `0`. -/
inductive SameTree : Formula → Formula → Prop
  | leaf {operand operand' : Operand} (h : operand.text = operand'.text) :
      SameTree (.leaf operand) (.leaf operand')
  | unary (op : Modifier) {f g : Formula} (h : SameTree f g) :
      SameTree (.unary op f) (.unary op g)
  | binary (op : BinaryOperator) {f f' g g' : Formula} (hleft : SameTree f g)
      (hright : SameTree f' g') : SameTree (.binary op f f') (.binary op g g')
  | sign {zero : Operand} {f g : Formula} (hzero : zero.text = "0") (h : SameTree f g) :
      SameTree (.unary .negation f) (.binary .sub (.leaf zero) g)
  | difference {zero : Operand} {f g : Formula} (hzero : zero.text = "0")
      (h : SameTree f g) : SameTree (.binary .sub (.leaf zero) f) (.unary .negation g)

/-- Only a leaf is shown as a leaf. -/
theorem exists_of_tree_eq_leaf {f : Formula} {content : String} (h : f.tree = .leaf content) :
    ∃ operand, f = .leaf operand ∧ operand.text = content := by
  cases f with
  | leaf operand =>
    rw [tree_leaf] at h
    exact ⟨operand, rfl, Term.leaf.inj h⟩
  | unary op f => cases op <;> simp at h
  | binary op f g => simp at h

/-- **Formulas with the same tree are shown alike.** -/
theorem sameTree_of_tree_eq {f g : Formula} (h : f.tree = g.tree) : SameTree f g := by
  induction f generalizing g with
  | leaf operand =>
    rw [tree_leaf] at h
    obtain ⟨operand', rfl, htext⟩ := exists_of_tree_eq_leaf h.symm
    exact .leaf htext.symm
  | unary op f ih =>
    cases op with
    | negation =>
      rw [tree_negation] at h
      cases g with
      | leaf operand => simp at h
      | unary op g =>
        cases op with
        | negation =>
          rw [tree_negation] at h
          exact .unary _ (ih (Term.binary.inj h).2.2)
        | operation op => simp at h
      | binary op g g' =>
        rw [tree_binary] at h
        obtain ⟨rfl, hzero, hoperand⟩ := Term.binary.inj h
        obtain ⟨zero, rfl, htext⟩ := exists_of_tree_eq_leaf hzero.symm
        exact .sign htext (ih hoperand)
    | operation op =>
      rw [tree_operation] at h
      cases g with
      | leaf operand => simp at h
      | unary op' g =>
        cases op' with
        | negation => simp at h
        | operation op' =>
          rw [tree_operation] at h
          obtain ⟨rfl, hoperand⟩ := Term.unary.inj h
          exact .unary _ (ih hoperand)
      | binary op' g g' => simp at h
  | binary op f f' ihl ihr =>
    rw [tree_binary] at h
    cases g with
    | leaf operand => simp at h
    | unary op' g =>
      cases op' with
      | negation =>
        rw [tree_negation] at h
        obtain ⟨rfl, hzero, hoperand⟩ := Term.binary.inj h
        obtain ⟨zero, rfl, htext⟩ := exists_of_tree_eq_leaf hzero
        exact .difference htext (ihr hoperand)
      | operation op' => simp at h
    | binary op' g g' =>
      rw [tree_binary] at h
      obtain ⟨rfl, hleft, hright⟩ := Term.binary.inj h
      exact .binary _ (ihl hleft) (ihr hright)

/-! ## Where they differ -/

/-- No part of the value of a formula is a positive zero. -/
def HasNoZeroPart (bindings : Bindings) (f : Formula) : Prop :=
  ∀ z, f.HasValue bindings z → z.re ≠ 0 ∧ z.im ≠ 0

/-- The operands that one formula has behind a sign and the other one in a difference from zero,
if the sign of a zero in their values may show in the values of the formulas. What is exposed
numerically in an operand of a node is so in the node; what is exposed otherwise must show in what
the node makes of the operands that one of the formulas has there. Below such an operand only the
former counts, since a difference from zero hides the signs of zeros. -/
inductive Exposed (bindings : Bindings) : Agreement → Formula → Formula → Formula → Prop
  | sign {zero : Operand} {f g : Formula} :
      Exposed bindings .exact (.unary .negation f) (.binary .sub (.leaf zero) g) f
  | difference {zero : Operand} {f g : Formula} :
      Exposed bindings .exact (.binary .sub (.leaf zero) f) (.unary .negation g) g
  | insideSign {agreement : Agreement} {zero : Operand} {f g e : Formula}
      (h : Exposed bindings .numeric f g e) :
      Exposed bindings agreement (.unary .negation f) (.binary .sub (.leaf zero) g) e
  | insideDifference {agreement : Agreement} {zero : Operand} {f g e : Formula}
      (h : Exposed bindings .numeric f g e) :
      Exposed bindings agreement (.binary .sub (.leaf zero) f) (.unary .negation g) e
  | unary {agreement inner : Agreement} {op : Modifier} {f g e : Formula}
      (h : Exposed bindings inner f g e)
      (hshown : inner = .exact → ∃ z v, (f.HasValue bindings z ∨ g.HasValue bindings z) ∧
        op.apply z = .ok v ∧ op.ShowsZeros agreement z v) :
      Exposed bindings agreement (.unary op f) (.unary op g) e
  | left {agreement inner : Agreement} {op : BinaryOperator} {f f' g g' e : Formula}
      (h : Exposed bindings inner f g e)
      (hshown : inner = .exact → ∃ z w v, (f.HasValue bindings z ∧ f'.HasValue bindings w ∨
        g.HasValue bindings z ∧ g'.HasValue bindings w) ∧
        op.apply z w = .ok v ∧ op.ShowsLeft agreement z w v) :
      Exposed bindings agreement (.binary op f f') (.binary op g g') e
  | right {agreement inner : Agreement} {op : BinaryOperator} {f f' g g' e : Formula}
      (h : Exposed bindings inner f' g' e)
      (hshown : inner = .exact → ∃ z w v, (f.HasValue bindings z ∧ f'.HasValue bindings w ∨
        g.HasValue bindings z ∧ g'.HasValue bindings w) ∧
        op.apply z w = .ok v ∧ op.ShowsRight agreement z w v) :
      Exposed bindings agreement (.binary op f f') (.binary op g g') e

/-! ## Their values -/

variable {bindings : Bindings}

/-- A difference from a leaf that reads `0`. -/
theorem hasValue_difference_iff {zero : Operand} (hzero : zero.text = "0") {f : Formula}
    {w : Complex} :
    HasValue bindings (.binary .sub (.leaf zero) f) w ↔
      ∃ z, f.HasValue bindings z ∧ Complex.zero - z = w := by
  have hread : leafValue? bindings "0" = some .zero := Operand.readsBack_zero bindings
  constructor
  · intro h
    obtain ⟨x, z, hx, hz, happly⟩ := hasValue_binary_iff.1 h
    rw [hasValue_leaf_iff, hzero, hread] at hx
    obtain rfl := Option.some.inj hx
    exact ⟨z, hz, Except.ok.inj happly⟩
  · rintro ⟨z, hz, rfl⟩
    exact .binary (.leaf (by rw [hzero, hread])) hz rfl

/-- The value behind a sign. -/
theorem hasValue_negation_iff {f : Formula} {w : Complex} :
    HasValue bindings (.unary .negation f) w ↔
      ∃ z, f.HasValue bindings z ∧ z.scale (-1) = w := by
  constructor
  · intro h
    obtain ⟨z, hz, happly⟩ := hasValue_unary_iff.1 h
    exact ⟨z, hz, Except.ok.inj happly⟩
  · rintro ⟨z, hz, rfl⟩
    exact .negation hz

/-- **Formulas with the same tree have values that agree**, exactly or up to the signs of zeros,
if no part of the value of an operand that is exposed in that way is a positive zero. -/
theorem SameTree.agree {f g : Formula} (h : SameTree f g) {agreement : Agreement} {z w : Complex}
    (hz : f.HasValue bindings z) (hw : g.HasValue bindings w)
    (hparts : ∀ e, Exposed bindings agreement f g e → e.HasNoZeroPart bindings) :
    z.Agree agreement w := by
  -- the induction carries both agreements, since an exact one below decides what shows above
  induction h generalizing agreement z w with
  | leaf htext =>
    rw [hasValue_leaf_iff] at hz hw
    rw [htext, hw] at hz
    exact Complex.agree_of_eq agreement (Option.some.inj hz).symm
  | unary op h ih =>
    obtain ⟨x, hx, hz⟩ := hasValue_unary_iff.1 hz
    obtain ⟨y, hy, hw⟩ := hasValue_unary_iff.1 hw
    have hsame : x.Agree .numeric y := ih hx hy fun e he => hparts e (.unary he (by simp))
    refine Modifier.agree_of_apply hsame (fun hshown => ?_) hz hw
    show x.Agree .exact y
    refine ih hx hy fun e he => hparts e (.unary he fun _ => ?_)
    exact hshown.elim (⟨x, z, .inl hx, hz, ·⟩) (⟨y, w, .inr hy, hw, ·⟩)
  | binary op hleft hright ihl ihr =>
    obtain ⟨x, x', hx, hx', hz⟩ := hasValue_binary_iff.1 hz
    obtain ⟨y, y', hy, hy', hw⟩ := hasValue_binary_iff.1 hw
    have hsame : x.Agree .numeric y := ihl hx hy fun e he => hparts e (.left he (by simp))
    have hsame' : x'.Agree .numeric y' := ihr hx' hy' fun e he => hparts e (.right he (by simp))
    refine BinaryOperator.agree_of_apply hsame hsame' (fun hshown => ?_) (fun hshown => ?_) hz hw
    · show x.Agree .exact y
      refine ihl hx hy fun e he => hparts e (.left he fun _ => ?_)
      exact hshown.elim (⟨x, x', z, .inl ⟨hx, hx'⟩, hz, ·⟩) (⟨y, y', w, .inr ⟨hy, hy'⟩, hw, ·⟩)
    · show x'.Agree .exact y'
      refine ihr hx' hy' fun e he => hparts e (.right he fun _ => ?_)
      exact hshown.elim (⟨x, x', z, .inl ⟨hx, hx'⟩, hz, ·⟩) (⟨y, y', w, .inr ⟨hy, hy'⟩, hw, ·⟩)
  | sign hzero h ih =>
    obtain ⟨x, hx, rfl⟩ := hasValue_negation_iff.1 hz
    obtain ⟨y, hy, rfl⟩ := (hasValue_difference_iff hzero).1 hw
    have hsame : x.Agree .numeric y := ih hx hy fun e he => hparts e (.insideSign he)
    have hdifference : Complex.zero - x = Complex.zero - y := hsame.zero_sub_eq
    cases agreement with
    | exact =>
      obtain ⟨hre, him⟩ := hparts _ .sign x hx
      exact (Complex.zero_sub_eq_scale hre him).symm.trans hdifference
    | numeric => exact hdifference ▸ (Complex.sameWorth_zero_sub x).symm
  | difference hzero h ih =>
    obtain ⟨x, hx, rfl⟩ := (hasValue_difference_iff hzero).1 hz
    obtain ⟨y, hy, rfl⟩ := hasValue_negation_iff.1 hw
    have hsame : x.Agree .numeric y := ih hx hy fun e he => hparts e (.insideDifference he)
    have hdifference : Complex.zero - x = Complex.zero - y := hsame.zero_sub_eq
    cases agreement with
    | exact =>
      obtain ⟨hre, him⟩ := hparts _ .difference y hy
      exact hdifference.trans (Complex.zero_sub_eq_scale hre him)
    | numeric => exact hdifference ▸ Complex.sameWorth_zero_sub y

end Formula

/-! ## The values of texts -/

namespace Calculator

/-- **Texts with the same tree have the same value**, unless an operand stands behind a sign in
one of them and in a difference from zero in the other one, a part of its value is a positive zero,
and the operations around it show the sign of that zero. Even then the values are the same
numbers, unless it shows in a power, in a function or in the root of a number that is not real. -/
theorem value_of_sameTree {c c' d d' : Calculator} {bindings : Bindings} {text text' : String}
    (hc : c.evaluate bindings text = .ok c') (hd : d.evaluate bindings text' = .ok d')
    (hsame : c'.sameTree d' = true) :
    ∃ depth depth' f g z w,
      Derives c.dialect .sum depth f (normalChars c.dialect text.toList) [] ∧
      Derives d.dialect .sum depth' g (normalChars d.dialect text'.toList) [] ∧
      c'.value? = some z ∧ d'.value? = some w ∧
      ((∀ e, Formula.Exposed bindings .exact f g e → e.HasNoZeroPart bindings) → z = w) ∧
      ((∀ e, Formula.Exposed bindings .numeric f g e → e.HasNoZeroPart bindings) →
        sameNumber z.re w.re = true ∧ sameNumber z.im w.im = true) := by
  obtain ⟨e, he, rfl⟩ := evaluate_eq_ok_iff.1 hc
  obtain ⟨e', he', rfl⟩ := evaluate_eq_ok_iff.1 hd
  obtain ⟨depth, f, z, -, hf, hz, rfl⟩ := Evaluation.of_eq_ok_iff.1 he
  obtain ⟨depth', g, w, -, hg, hw, rfl⟩ := Evaluation.of_eq_ok_iff.1 he'
  have htree : f.tree = g.tree := Option.some.inj (sameTree_iff.1 hsame)
  have hshown := Formula.sameTree_of_tree_eq htree
  refine ⟨depth, depth', f, g, z, w, hf, hg, rfl, rfl, hshown.agree hz hw, fun hparts => ?_⟩
  have hnumeric : z.Agree .numeric w := hshown.agree hz hw hparts
  exact hnumeric.sameNumber

/-- A product with a sign, and with a difference, before roots of negative numbers: both signs of
zeros are hidden, that of the imaginary part of `-4` in the root and that of the real part of the
root in the product. -/
theorem value_of_sameTree_root :
    ∃ c' d' z, evaluate {} .empty "3*-√-4" = .ok c' ∧
      evaluate {} .empty "3*(0-√(0-4))" = .ok d' ∧
      c'.value? = some z ∧ d'.value? = some z := by
  have hsign : evaluate {} .empty "3*-√-4" =
      .ok ⟨{}, some ⟨"3*-√-4", .empty, .binary .mul (.leaf "3")
        (Tree.negation (.unary .root (Tree.negation (.leaf "4")))), ⟨0, -6⟩⟩⟩ := by
    decide +kernel
  have hdifference : evaluate {} .empty "3*(0-√(0-4))" =
      .ok ⟨{}, some ⟨"3*(0-√(0-4))", .empty, .binary .mul (.leaf "3")
        (Tree.negation (.unary .root (Tree.negation (.leaf "4")))), ⟨0, -6⟩⟩⟩ := by
    decide +kernel
  have hread : Formula.read {} (normalChars {} "3*-√-4".toList)
      = .ok (.binary .mul (.leaf (.constant "3" ⟨3, 0⟩)) (.unary .negation
          (.unary (.operation .root) (.unary .negation (.leaf (.constant "4" ⟨4, 0⟩)))))) := by
    decide +kernel
  have hread' : Formula.read {} (normalChars {} "3*(0-√(0-4))".toList)
      = .ok (.binary .mul (.leaf (.constant "3" ⟨3, 0⟩))
          (.binary .sub (.leaf (.constant "0" .zero)) (.unary (.operation .root)
            (.binary .sub (.leaf (.constant "0" .zero)) (.leaf (.constant "4" ⟨4, 0⟩)))))) := by
    decide +kernel
  obtain ⟨_, -, hderives⟩ := Formula.read_eq_ok_iff.1 hread
  obtain ⟨_, -, hderives'⟩ := Formula.read_eq_ok_iff.1 hread'
  obtain ⟨depth, depth', f, g, z, w, hf, hg, hz, hw, hequal, -⟩ :=
    value_of_sameTree hsign hdifference (by decide +kernel)
  obtain rfl := hf.unique hderives
  obtain rfl := hg.unique hderives'
  obtain rfl : z = w := by
    refine hequal fun e hexposed => ?_
    -- the values on the way up
    have hfactor : Formula.HasValue .empty (.leaf (.constant "3" ⟨3, 0⟩)) ⟨3, 0⟩ :=
      .leaf (by decide +kernel)
    have hfour : Formula.HasValue .empty (.leaf (.constant "4" ⟨4, 0⟩)) ⟨4, 0⟩ :=
      .leaf (by decide +kernel)
    have hopposite := Formula.HasValue.negation hfour
    have hopposite' : Formula.HasValue .empty (.binary .sub (.leaf (.constant "0" .zero)) _) _ :=
      (Formula.hasValue_difference_iff rfl).2 ⟨_, hfour, rfl⟩
    have hroot : Formula.HasValue .empty (.unary (.operation .root) _) ⟨0, 2⟩ :=
      .operation hopposite (by decide +kernel)
    have hroot' : Formula.HasValue .empty (.unary (.operation .root) _) ⟨0, 2⟩ :=
      .operation hopposite' (by decide +kernel)
    have hright := Formula.HasValue.negation hroot
    have hright' : Formula.HasValue .empty (.binary .sub (.leaf (.constant "0" .zero)) _) _ :=
      (Formula.hasValue_difference_iff rfl).2 ⟨_, hroot', rfl⟩
    cases hexposed with
    | left h => cases h
    | right h hshown =>
      cases h with
      | sign =>
        -- no part of the product is a negative zero
        obtain ⟨x, y, v, ⟨hx, hy⟩ | ⟨hx, hy⟩, happly, -, hnegative⟩ := hshown rfl
        · obtain rfl := hfactor.unique hx
          obtain rfl := hright.unique hy
          obtain rfl := Except.ok.inj happly
          exact absurd hnegative (by decide +kernel)
        · obtain rfl := hfactor.unique hx
          obtain rfl := hright'.unique hy
          obtain rfl := Except.ok.inj happly
          exact absurd hnegative (by decide +kernel)
      | insideSign h =>
        cases h with
        | unary h hshown =>
          cases h with
          | sign =>
            -- the operand of either root is a number whose real part is not zero
            obtain ⟨x, v, hx | hx, -, hzero⟩ := hshown rfl
            · obtain rfl := hopposite.unique hx
              exact absurd hzero.1 (by decide +kernel)
            · obtain rfl := hopposite'.unique hx
              exact absurd hzero.1 (by decide +kernel)
          | insideSign h => cases h
  exact ⟨_, _, z, hsign, hdifference, hz, hw⟩

/-- The imaginary part of `-1` is a negative zero, that of `0-1` a positive one. -/
theorem value_ne_of_sameTree :
    (evaluate {} .empty "-1").toOption.bind tree?
        = (evaluate {} .empty "0-1").toOption.bind tree? ∧
      (evaluate {} .empty "-1").toOption.bind value? = some ⟨-1, -0⟩ ∧
      (evaluate {} .empty "0-1").toOption.bind value? = some ⟨-1, 0⟩ ∧
      (-0 : Float) ≠ 0 := by
  decide +kernel

end Calculator

end ComplexFormula
