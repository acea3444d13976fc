/-
# Calls on the fields

The calls assign the fields of a calculator one after another. In a success all of them get the
parts of one evaluation, and in a failure none is assigned, so a calculator may be seen as a
dialect with its last success.

* `Calculator.fields` : the fields in which a calculator is kept;
* `Calculator.shown_fields` : they show what the calculator shows;
* `Calculator.Fields.run_commit` : the assignments keep one success as a whole;
* `Calculator.run_call_of_ok`, `Calculator.run_call_of_error` : the calls, by their outcomes;
* `Calculator.fields_after`, `Calculator.fields_run` : the fields after one call and after all.
-/
import ComplexFormula.Calculator.Fields
import ComplexFormula.Proofs.Calculator

namespace ComplexFormula.Calculator

/-- The fields in which a calculator is kept. -/
def fields (c : Calculator) : Fields :=
  match c.last with
  | none => { dialect := c.dialect }
  | some e => ⟨c.dialect, e.normalized, e.bindings, some e.tree, some e.value⟩

/-- **The fields show what the calculator shows.** -/
theorem shown_fields (c : Calculator) :
    c.fields.normalized = c.normalized ∧ c.fields.value? = c.value? ∧ c.fields.tree? = c.tree? ∧
      c.fields.prefixText? = c.prefixText? ∧ c.fields.drawing? = c.drawing? ∧
      ∀ d : Calculator, c.fields.sameTree d.fields = c.sameTree d := by
  have hsame : ∀ c d : Calculator, c.fields.sameTree d.fields = c.sameTree d := by
    rintro ⟨_, _ | _⟩ ⟨_, _ | _⟩ <;> rfl
  obtain ⟨dialect, _ | e⟩ := c
  · exact ⟨rfl, rfl, rfl, rfl, rfl, hsame _⟩
  · exact ⟨rfl, rfl, rfl, rfl, rfl, hsame _⟩

/-! ## Calls -/

/-- An evaluation keeps the values of the names. -/
theorem bindings_of_evaluation {dialect : Dialect} {bindings : Bindings} {text : String}
    {e : Evaluation} (h : Evaluation.of dialect bindings text = .ok e) : e.bindings = bindings := by
  obtain ⟨depth, f, z, -, -, -, rfl⟩ := Evaluation.of_eq_ok_iff.1 h
  rfl

namespace Fields

/-- **A commit keeps a success as a whole**, and returns its value. -/
theorem run_commit (c : Calculator) (e : Evaluation) :
    (commit e.normalized e.bindings e.tree e.value).run c.fields
      = .ok e.value { c with last := some e }.fields := by
  obtain ⟨dialect, _ | _⟩ := c <;> rfl

/-- A text is evaluated in the dialect of the calculator; where that fails, no field has been
assigned. -/
theorem run_parse_bind (c : Calculator) (bindings : Bindings) (text : String)
    (next : Evaluation → Program Complex) :
    (parse bindings text >>= next).run c.fields =
      match Evaluation.of c.dialect bindings text with
      | .ok e => (next e).run c.fields
      | .error reason => .error reason c.fields := by
  have hdialect : c.fields.dialect = c.dialect := by
    obtain ⟨dialect, _ | _⟩ := c <;> rfl
  show (result (Evaluation.of c.fields.dialect bindings text) >>= next).run c.fields = _
  rw [hdialect]
  cases Evaluation.of c.dialect bindings text <;> rfl

/-- A call as a program on the fields. -/
def call : Call → Program Complex
  | .evaluate bindings text => evaluate bindings text
  | .evaluateConjugate bindings text => evaluateConjugate bindings text

/-- The fields after a call, whether it succeeds or fails. -/
def after (s : Fields) (c : Call) : Fields :=
  match (call c).run s with
  | .ok _ s' => s'
  | .error _ s' => s'

/-- Fresh fields after some calls. -/
def run (dialect : Dialect) (calls : List Call) : Fields := calls.foldl after { dialect }

end Fields

/-- **A call that succeeds** returns the value of the calculator that it leaves, and the fields
are those of that calculator. -/
theorem run_call_of_ok {c d : Calculator} {call : Call} (h : c.attempt call = .ok d) :
    ∃ z, d.value? = some z ∧ (Fields.call call).run c.fields = .ok z d.fields := by
  cases call with
  | evaluate bindings text =>
    obtain ⟨e, he, rfl⟩ := evaluate_eq_ok_iff.1 h
    obtain rfl := bindings_of_evaluation he
    refine ⟨e.value, rfl, ?_⟩
    rw [Fields.call, Fields.evaluate, Fields.run_parse_bind, he]
    exact Fields.run_commit c e
  | evaluateConjugate bindings text =>
    obtain ⟨e, he, rfl⟩ := evaluateConjugate_eq_ok_iff.1 h
    obtain rfl := bindings_of_evaluation he
    refine ⟨e.conjugate.value, rfl, ?_⟩
    rw [Fields.call, Fields.evaluateConjugate, Fields.run_parse_bind, he]
    exact Fields.run_commit c e.conjugate

/-- **A call that fails** gives the same reason, and leaves the fields. -/
theorem run_call_of_error {c : Calculator} {call : Call} {reason : FormulaError}
    (h : c.attempt call = .error reason) :
    (Fields.call call).run c.fields = .error reason c.fields := by
  cases call with
  | evaluate bindings text =>
    rw [attempt, evaluate_eq_map, map_eq_error_iff] at h
    rw [Fields.call, Fields.evaluate, Fields.run_parse_bind, h]
  | evaluateConjugate bindings text =>
    rw [attempt, evaluateConjugate_eq_map, map_eq_error_iff] at h
    rw [Fields.call, Fields.evaluateConjugate, Fields.run_parse_bind, h]

/-- The fields after a call are those of the calculator after it. -/
theorem fields_after (c : Calculator) (call : Call) :
    (c.after call).fields = c.fields.after call := by
  rw [after_eq_keep, Fields.after]
  cases h : c.attempt call with
  | ok d =>
    obtain ⟨z, -, hrun⟩ := run_call_of_ok h
    rw [hrun, keep]
  | error reason => rw [run_call_of_error h, keep]

/-- **The fields after any calls** are those of the calculator after them. -/
theorem fields_run (dialect : Dialect) (calls : List Call) :
    (run dialect calls).fields = Fields.run dialect calls := by
  have hfresh : ({ dialect } : Calculator).fields = { dialect } := rfl
  rw [run, Fields.run, ← hfresh]
  -- the induction is on the calls that are left, from any calculator
  generalize ({ dialect } : Calculator) = c
  induction calls generalizing c with
  | nil => rfl
  | cons call calls ih => rw [List.foldl_cons, ih, fields_after, List.foldl_cons]

end ComplexFormula.Calculator
