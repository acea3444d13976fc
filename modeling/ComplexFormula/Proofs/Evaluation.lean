/-
# Evaluating a text

What a calculator holds after a success, in terms of the grammar and of the values of
formulas alone.

* `Calculator.evaluate_iff_derives` : an evaluation succeeds with a tree if the grammar
  derives the tree from the normal form and the formula has a value;
* `Calculator.hasValue_of_evaluate` : the value of a success is the value of its tree.
-/
import ComplexFormula.Calculator
import ComplexFormula.Proofs.Grammar.Complete
import ComplexFormula.Proofs.Grammar.Leaves

namespace ComplexFormula

/-! ## Formulas and their values -/

/-- A text is evaluated to the value of the formula that the grammar derives from it. -/
theorem Formula.readAndEvaluate_eq_ok_iff {dialect : Dialect} {bindings : Bindings}
    {s : List Char} {f : Formula} {z : Complex} :
    Formula.readAndEvaluate dialect bindings s = .ok (f, z) ↔
      (∃ depth, depth ≤ dialect.nestingLimit ∧ Derives dialect .sum depth f s []) ∧
        f.HasValue bindings z := by
  rw [← Formula.read_eq_ok_iff]
  unfold Formula.readAndEvaluate
  split
  · next fault hread =>
    rw [hread]
    split <;> simp
  · next g hread =>
    obtain ⟨depth, -, hderives⟩ := Formula.read_eq_ok_iff.1 hread
    rw [hread, Except.ok.injEq]
    split
    · next reason hreason =>
      refine iff_of_false (by simp) ?_
      rintro ⟨rfl, hz⟩
      rw [← Formula.evaluate_eq_ok_iff hderives.readsBack, hreason] at hz
      simp at hz
    · next value hvalue =>
      rw [Formula.evaluate_eq_ok_iff hderives.readsBack] at hvalue
      rw [Except.ok.injEq, Prod.mk.injEq]
      constructor
      · rintro ⟨rfl, rfl⟩
        exact ⟨rfl, hvalue⟩
      · rintro ⟨rfl, hz⟩
        exact ⟨rfl, hvalue.unique hz⟩

/-- An evaluation holds the normal form, the bindings, and the tree and value of the formula
that was derived. -/
theorem Evaluation.of_eq_ok_iff {dialect : Dialect} {bindings : Bindings} {text : String}
    {e : Evaluation} :
    Evaluation.of dialect bindings text = .ok e ↔
      ∃ depth f z, depth ≤ dialect.nestingLimit ∧
        Derives dialect .sum depth f (normalChars dialect text.toList) [] ∧
        f.HasValue bindings z ∧ e = ⟨normalize dialect text, bindings, f.tree, z⟩ := by
  unfold Evaluation.of
  simp only
  split
  · next reason hreason =>
    refine iff_of_false (by simp) ?_
    rintro ⟨depth, f, z, hdepth, hderives, hz, -⟩
    rw [Formula.readAndEvaluate_eq_ok_iff.2 ⟨⟨depth, hdepth, hderives⟩, hz⟩] at hreason
    simp at hreason
  · next f z hread =>
    obtain ⟨⟨depth, hdepth, hderives⟩, hz⟩ := Formula.readAndEvaluate_eq_ok_iff.1 hread
    rw [Except.ok.injEq]
    constructor
    · rintro rfl
      exact ⟨depth, f, z, hdepth, hderives, hz, rfl⟩
    · rintro ⟨depth', g, w, -, hderives', hw, rfl⟩
      obtain rfl := hderives.unique hderives'
      obtain rfl := hz.unique hw
      rfl

/-! ## Calculators after a success -/

namespace Calculator

/-- A success is kept, and the dialect stays. -/
theorem evaluate_eq_map (c : Calculator) (bindings : Bindings) (text : String) :
    c.evaluate bindings text
      = (Evaluation.of c.dialect bindings text).map fun e => { c with last := some e } := by
  unfold evaluate
  split
  · next reason hreason =>
    rw [hreason]
    rfl
  · next e he =>
    rw [he]
    rfl

/-- The conjugate of a success is kept, and the dialect stays. -/
theorem evaluateConjugate_eq_map (c : Calculator) (bindings : Bindings) (text : String) :
    c.evaluateConjugate bindings text
      = (Evaluation.of c.dialect bindings text).map
          fun e => { c with last := some e.conjugate } := by
  unfold evaluateConjugate
  split
  · next reason hreason =>
    rw [hreason]
    rfl
  · next e he =>
    rw [he]
    rfl

/-- What a calculator holds after a success. -/
theorem evaluate_eq_ok_iff {c c' : Calculator} {bindings : Bindings} {text : String} :
    c.evaluate bindings text = .ok c' ↔
      ∃ e, Evaluation.of c.dialect bindings text = .ok e ∧ { c with last := some e } = c' := by
  rw [evaluate_eq_map, map_eq_ok_iff]

/-- What a calculator holds after taking the conjugate. -/
theorem evaluateConjugate_eq_ok_iff {c c' : Calculator} {bindings : Bindings} {text : String} :
    c.evaluateConjugate bindings text = .ok c' ↔
      ∃ e, Evaluation.of c.dialect bindings text = .ok e ∧
        { c with last := some e.conjugate } = c' := by
  rw [evaluateConjugate_eq_map, map_eq_ok_iff]

/-- An evaluation fails for the reason why the text has no value. -/
theorem evaluate_eq_error_iff {c : Calculator} {bindings : Bindings} {text : String}
    {reason : FormulaError} :
    c.evaluate bindings text = .error reason ↔
      Evaluation.of c.dialect bindings text = .error reason := by
  rw [evaluate_eq_map, map_eq_error_iff]

/-- The conjugate of a text has no value for the same reason as the text. -/
theorem evaluateConjugate_eq_error_iff {c : Calculator} {bindings : Bindings} {text : String}
    {reason : FormulaError} :
    c.evaluateConjugate bindings text = .error reason ↔
      Evaluation.of c.dialect bindings text = .error reason := by
  rw [evaluateConjugate_eq_map, map_eq_error_iff]

/-! ## Outcomes -/

/-- The tree and the value that a calculator holds. -/
def shown (c : Calculator) : Option Tree × Option Complex := (c.tree?, c.value?)

/-- What evaluating a text shows: the tree and the value, or the reason why there are none. -/
def outcome (c : Calculator) (bindings : Bindings) (text : String) :
    Except FormulaError (Option Tree × Option Complex) :=
  (c.evaluate bindings text).map shown

/-- An outcome is that of the formula in the normal form. -/
theorem outcome_eq (c : Calculator) (bindings : Bindings) (text : String) :
    c.outcome bindings text
      = (Formula.readAndEvaluate c.dialect bindings (normalChars c.dialect text.toList)).map
          fun result => (some result.1.tree, some result.2) := by
  rw [outcome, evaluate_eq_map, Evaluation.of]
  cases Formula.readAndEvaluate c.dialect bindings (normalChars c.dialect text.toList) <;> rfl

/-! ## Trees and values -/

/-- **Soundness and completeness.** An evaluation succeeds with a tree exactly if the grammar
derives the tree from the whole normal form, all names are bound, no operation is undefined
and the nesting keeps to the limit. The derived formula is unique. -/
theorem evaluate_iff_derives (c : Calculator) (bindings : Bindings) (text : String) :
    (∀ t : Tree,
      (∃ c', c.evaluate bindings text = .ok c' ∧ c'.tree? = some t) ↔
        ∃ depth f, Derives c.dialect .sum depth f (normalChars c.dialect text.toList) [] ∧
          f.tree = t ∧ f.AllLeaves (Operand.IsBound bindings) ∧ f.IsDefined bindings ∧
          depth ≤ c.dialect.nestingLimit) ∧
      ∀ depth depth' f g,
        Derives c.dialect .sum depth f (normalChars c.dialect text.toList) [] →
        Derives c.dialect .sum depth' g (normalChars c.dialect text.toList) [] → f = g := by
  refine ⟨fun t => ?_, fun _ _ _ _ hf hg => hf.unique hg⟩
  -- the side conditions are those under which the derived formula has a value
  constructor
  · rintro ⟨c', hc', ht⟩
    obtain ⟨e, he, rfl⟩ := evaluate_eq_ok_iff.1 hc'
    obtain ⟨depth, f, z, hdepth, hderives, hz, rfl⟩ := Evaluation.of_eq_ok_iff.1 he
    obtain ⟨hbound, hdefined⟩ := (Formula.exists_hasValue_iff hderives.readsBack).1 ⟨z, hz⟩
    exact ⟨depth, f, hderives, Option.some.inj ht, hbound, hdefined, hdepth⟩
  · rintro ⟨depth, f, hderives, rfl, hbound, hdefined, hdepth⟩
    obtain ⟨z, hz⟩ :=
      (Formula.exists_hasValue_iff hderives.readsBack).2 ⟨hbound, hdefined⟩
    have he := Evaluation.of_eq_ok_iff.2 ⟨depth, f, z, hdepth, hderives, hz, rfl⟩
    exact ⟨_, evaluate_eq_ok_iff.2 ⟨_, he, rfl⟩, rfl⟩

/-- A text with a sign, a literal in parentheses and two implied products. -/
theorem evaluate_implied_products :
    evaluate {} (.ofList [("x", .unit)]) "-2(1+2i)(x-3)" =
      .ok ⟨{}, some ⟨normalize {} "-2(1+2i)(x-3)", .ofList [("x", .unit)],
        .binary .mul (.binary .mul (Tree.negation (.leaf "2")) (.leaf "1+2i"))
          (.binary .sub (.leaf "x") (.leaf "3")), ⟨10, 10⟩⟩⟩ := by
  decide +kernel

/-- The derivation of such a text is unique. -/
theorem evaluate_iff_derives_implied_products :
    ∃ depth f, Derives {} .sum depth f (normalChars {} "-2(1+2i)(x-3)".toList) [] ∧
      f.tree = .binary .mul (.binary .mul (Tree.negation (.leaf "2")) (.leaf "1+2i"))
        (.binary .sub (.leaf "x") (.leaf "3")) ∧
      ∀ depth' g,
        Derives {} .sum depth' g (normalChars {} "-2(1+2i)(x-3)".toList) [] → f = g := by
  have h := evaluate_iff_derives {} (.ofList [("x", .unit)]) "-2(1+2i)(x-3)"
  obtain ⟨depth, f, hderives, hf, -⟩ := (h.1 _).1 ⟨_, evaluate_implied_products, rfl⟩
  exact ⟨depth, f, hderives, hf, fun depth' g hg => h.2 depth depth' f g hderives hg⟩

/-- **The value of a success is the value of its tree**, where the formula tells the signs from
the differences. The conjugate is one more node at the root. -/
theorem hasValue_of_evaluate (c : Calculator) (bindings : Bindings) (text : String) :
    (∀ c', c.evaluate bindings text = .ok c' →
      ∃ depth f z, Derives c.dialect .sum depth f (normalChars c.dialect text.toList) [] ∧
        f.HasValue bindings z ∧ c'.tree? = some f.tree ∧ c'.value? = some z) ∧
      (∀ reason, c.evaluateConjugate bindings text = .error reason ↔
        c.evaluate bindings text = .error reason) ∧
      ∀ c', c.evaluate bindings text = .ok c' →
        ∃ d t z w, c.evaluateConjugate bindings text = .ok d ∧
          d.normalized = c'.normalized ∧
          c'.tree? = some t ∧ d.tree? = some (.unary .conjugate t) ∧
          c'.value? = some z ∧ UnaryOperator.conjugate.apply z = .ok w ∧
          d.value? = some w := by
  refine ⟨?_, ?_, ?_⟩
  · intro c' hc'
    obtain ⟨e, he, rfl⟩ := evaluate_eq_ok_iff.1 hc'
    obtain ⟨depth, f, z, -, hderives, hz, rfl⟩ := Evaluation.of_eq_ok_iff.1 he
    exact ⟨depth, f, z, hderives, hz, rfl, rfl⟩
  · intro reason
    rw [evaluateConjugate_eq_error_iff, evaluate_eq_error_iff]
  · intro c' hc'
    obtain ⟨e, he, rfl⟩ := evaluate_eq_ok_iff.1 hc'
    exact ⟨_, e.tree, e.value, _, evaluateConjugate_eq_ok_iff.2 ⟨e, he, rfl⟩, rfl, rfl, rfl,
      rfl, rfl, rfl⟩

/-- The value of such a text, and its conjugate. -/
theorem hasValue_of_evaluate_implied_products :
    (∃ f : Formula, f.HasValue (.ofList [("x", .unit)]) ⟨10, 10⟩ ∧
      f.tree = .binary .mul (.binary .mul (Tree.negation (.leaf "2")) (.leaf "1+2i"))
        (.binary .sub (.leaf "x") (.leaf "3"))) ∧
      ∃ d, evaluateConjugate {} (.ofList [("x", .unit)]) "-2(1+2i)(x-3)" = .ok d ∧
        d.value? = some (Complex.conjugate ⟨10, 10⟩) := by
  obtain ⟨hvalue, -, hconjugate⟩ :=
    hasValue_of_evaluate {} (.ofList [("x", .unit)]) "-2(1+2i)(x-3)"
  constructor
  · obtain ⟨depth, f, z, -, hz, htree, hvalue⟩ := hvalue _ evaluate_implied_products
    obtain rfl := Option.some.inj hvalue
    exact ⟨f, hz, (Option.some.inj htree).symm⟩
  · obtain ⟨d, t, z, w, hd, -, -, -, hz, hw, hdw⟩ := hconjugate _ evaluate_implied_products
    obtain rfl := Option.some.inj hz
    obtain rfl := Except.ok.inj hw
    exact ⟨d, hd, hdw⟩

end Calculator

end ComplexFormula
