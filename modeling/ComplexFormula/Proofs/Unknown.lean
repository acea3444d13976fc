/-
# Unknown variables

A text has no value where it is malformed, where an operation of its formula is undefined, or
where a name of it is not bound. The name has then been read in the text, and the scanner of names
finds every name that is read.

* `FormulaError.OfValue` : the reasons of formulas that have no value;
* `Formula.readAndEvaluate_eq_error` : the reasons of texts;
* `Evaluation.of_eq_unknownVariable` : an unknown variable is not bound, and it is a variable of
  the text.
-/
import ComplexFormula.Calculator
import ComplexFormula.Proofs.Grammar.Complete
import ComplexFormula.Proofs.Scanning
import ComplexFormula.Proofs.Value

namespace ComplexFormula

variable {bindings : Bindings}

/-! ## Formulas -/

/-- A reason why a formula has no value: an operation is undefined, or a leaf with a property is a
name that is not bound. -/
inductive FormulaError.OfValue (bindings : Bindings) (P : Operand → Prop) : FormulaError → Prop
  | undefined (reason : ArithmeticError) : OfValue bindings P (.undefined reason)
  | unknown {name : String} (hleaf : P (.name name)) (h : bindings.resolve? name = none) :
      OfValue bindings P (.unknownVariable name)

section

variable {P : Operand → Prop} {reason : FormulaError}

/-- A failed operation is undefined. -/
theorem ofValue_of_mapError {α : Type} {x : Except ArithmeticError α}
    (h : x.mapError FormulaError.undefined = .error reason) : reason.OfValue bindings P := by
  obtain ⟨failure, -, rfl⟩ := mapError_eq_error_iff.1 h
  exact .undefined failure

/-- An operand without a value is a name that is not bound. -/
theorem Operand.ofValue_of_evaluate {operand : Operand} (hP : P operand)
    (h : operand.evaluate bindings = .error reason) : reason.OfValue bindings P := by
  cases operand with
  | constant text value => simp [evaluate] at h
  | name text =>
    rw [evaluate] at h
    split at h
    · simp at h
    · next hnone =>
      rw [← Except.error.inj h]
      exact .unknown hP hnone

/-- A modifier fails for an operation. -/
theorem Modifier.ofValue_of_apply {op : Modifier} {z : Complex} (h : op.apply z = .error reason) :
    reason.OfValue bindings P := by
  cases op with
  | negation => simp [apply] at h
  | operation op => exact ofValue_of_mapError h

/-- **Why a formula has no value.** -/
theorem Formula.ofValue_of_evaluate {f : Formula} (hf : f.AllLeaves P)
    (h : f.evaluate bindings = .error reason) : reason.OfValue bindings P := by
  induction f with
  | leaf operand =>
    rw [evaluate_leaf] at h
    exact Operand.ofValue_of_evaluate hf h
  | unary op f ih =>
    rw [evaluate_unary, bind_eq_error_iff] at h
    rcases h with h | ⟨z, -, h⟩
    · exact ih hf h
    · exact Modifier.ofValue_of_apply h
  | binary op f g ihl ihr =>
    rw [evaluate_binary, bind_eq_error_iff] at h
    rcases h with h | ⟨z, -, h⟩
    · exact ihl hf.1 h
    · rw [bind_eq_error_iff] at h
      rcases h with h | ⟨w, -, h⟩
      · exact ihr hf.2 h
      · exact ofValue_of_mapError h

/-- What the formulas before a fault meet is the reason of one of them. -/
theorem Formula.ofValue_of_check {formulas : List Formula} (hP : ∀ f ∈ formulas, f.AllLeaves P)
    (h : check bindings formulas = .error reason) : reason.OfValue bindings P := by
  induction formulas with
  | nil => simp [check] at h
  | cons f rest ih =>
    rw [check] at h
    split at h
    · next reason' hreason =>
      rw [Except.error.inj h] at hreason
      exact ofValue_of_evaluate (hP f List.mem_cons_self) hreason
    · exact ih (fun g hg => hP g (List.mem_cons_of_mem f hg)) h

end

/-! ## Texts -/

/-- The names of the formulas that were complete before a text broke off are scanned. -/
theorem Formula.isScanned_of_read_eq_error {dialect : Dialect} {s : List Char} {fault : Fault}
    (h : Formula.read dialect s = .error fault) :
    ∀ f ∈ fault.completed, f.IsScanned dialect s := by
  rcases fails_of_read_eq_error h with hfails | ⟨depth, f, rest, -, hderives, -, rfl⟩
  · exact hfails.isScanned
  · intro g hg
    obtain rfl := List.mem_singleton.1 hg
    exact hderives.isScanned

/-- **Why a text has no value.** It is malformed, or a formula of it has no value, be it one that
was complete before the text broke off. -/
theorem Formula.readAndEvaluate_eq_error {dialect : Dialect} {s : List Char}
    {reason : FormulaError} (h : readAndEvaluate dialect bindings s = .error reason) :
    reason.OfValue bindings (Operand.IsScanned dialect s) ∨
      ∃ fault, read dialect s = .error fault ∧ reason = .malformed fault.reason := by
  unfold readAndEvaluate at h
  split at h
  · next fault hread =>
    split at h
    · next reason' hreason =>
      rw [Except.error.inj h] at hreason
      exact Or.inl (ofValue_of_check (isScanned_of_read_eq_error hread) hreason)
    · exact Or.inr ⟨fault, hread, (Except.error.inj h).symm⟩
  · next f hread =>
    obtain ⟨depth, -, hderives⟩ := read_eq_ok_iff.1 hread
    split at h
    · next reason' hreason =>
      rw [Except.error.inj h] at hreason
      exact Or.inl (ofValue_of_evaluate hderives.isScanned hreason)
    · simp at h

/-- The evaluation of a text fails where that of its normal form does. -/
theorem Evaluation.of_eq_error_iff {dialect : Dialect} {text : String} {reason : FormulaError} :
    Evaluation.of dialect bindings text = .error reason ↔
      Formula.readAndEvaluate dialect bindings (normalChars dialect text.toList)
        = .error reason := by
  unfold Evaluation.of
  simp only
  split
  · next reason' hreason => rw [hreason, Except.error.injEq, Except.error.injEq]
  · next f value hvalue =>
    rw [hvalue]
    exact iff_of_false nofun nofun

/-! ## Variables of texts -/

section

variable {name : String}

/-- What has no value is neither reserved nor bound. -/
theorem Bindings.resolve?_eq_none_iff :
    bindings.resolve? name = none ↔ isReserved name = false ∧ bindings.get? name = none := by
  rw [resolve?, Option.or_eq_none_iff, isReserved, Option.isSome_eq_false_iff,
    Option.isNone_iff_eq_none]

/-- The variables of a text are the names in its normal form that are not reserved. -/
theorem mem_variableNames_iff {dialect : Dialect} {text : String} :
    name ∈ variableNames dialect text ↔
      name ∈ scannedNames dialect (normalChars dialect text.toList) ∧
        isReserved name = false := by
  rw [variableNames, List.mem_eraseDups, List.mem_filter, Bool.not_eq_true', scannedNames]

/-- **An unknown variable is a variable of the text**, and it is not bound. -/
theorem Evaluation.of_eq_unknownVariable {dialect : Dialect} {text : String}
    (h : Evaluation.of dialect bindings text = .error (.unknownVariable name)) :
    isReserved name = false ∧ bindings.get? name = none ∧ name ∈ variableNames dialect text := by
  rcases Formula.readAndEvaluate_eq_error (of_eq_error_iff.1 h) with h | ⟨fault, -, h⟩
  · cases h with
    | unknown hscanned hnone =>
      obtain ⟨hreserved, hget⟩ := Bindings.resolve?_eq_none_iff.1 hnone
      exact ⟨hreserved, hget, mem_variableNames_iff.2 ⟨hscanned, hreserved⟩⟩
  · simp at h

end

end ComplexFormula
