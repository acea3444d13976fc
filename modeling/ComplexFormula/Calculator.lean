/-
# Calculators

A calculator evaluates formulas in one dialect and keeps its last success.

* `Evaluation.of` : what evaluating a text gives, or why it has no value;
* `Calculator.evaluate`, `Calculator.evaluateConjugate` : a calculator after one more
  success.
-/
import ComplexFormula.Formula.Reader
import ComplexFormula.Normal

namespace ComplexFormula

/-! ## Evaluations -/

/-- The first formula without a value gives the reason. -/
def Formula.check (bindings : Bindings) : List Formula → Except FormulaError Unit
  | [] => .ok ()
  | f :: rest =>
    match f.evaluate bindings with
    | .error reason => .error reason
    | .ok _ => check bindings rest

/-- The formula that a text in normal form spells, and its value. Faults arise in reading
order: a part that was complete before a malformed one is evaluated first. -/
def Formula.readAndEvaluate (dialect : Dialect) (bindings : Bindings) (s : List Char) :
    Except FormulaError (Formula × Complex) :=
  match Formula.read dialect s with
  | .error fault =>
    match check bindings fault.completed with
    | .error reason => .error reason
    | .ok () => .error (.malformed fault.reason)
  | .ok f =>
    match f.evaluate bindings with
    | .error reason => .error reason
    | .ok value => .ok (f, value)

/-- A text that was evaluated: its normal form, the bindings at the time, the syntax tree
and the value. -/
structure Evaluation where
  normalized : String
  bindings : Bindings
  tree : Tree
  value : Complex
  deriving DecidableEq

namespace Evaluation

/-- Evaluates a text under some bindings. -/
def of (dialect : Dialect) (bindings : Bindings) (text : String) :
    Except FormulaError Evaluation :=
  let s := normalChars dialect text.toList
  match Formula.readAndEvaluate dialect bindings s with
  | .error reason => .error reason
  | .ok (f, value) => .ok ⟨String.ofList s, bindings, f.tree, value⟩

/-- The evaluation with the conjugate value, and a tree that says so. -/
def conjugate (e : Evaluation) : Evaluation :=
  { e with
    tree := .unary .conjugate e.tree
    value := e.value.conjugate }

/-- The tree in prefix notation. -/
def prefixText (e : Evaluation) : String := Tree.prefixText e.tree

/-- The drawing of the evaluation, with the values at its time. -/
def drawing (e : Evaluation) : Drawing := Tree.execution e.bindings e.value e.tree

end Evaluation

/-! ## Calculators -/

/-- A dialect and the last success, if there was one. -/
structure Calculator where
  dialect : Dialect := {}
  last : Option Evaluation := none
  deriving DecidableEq

namespace Calculator

/-- The calculator after evaluating a text. -/
def evaluate (c : Calculator) (bindings : Bindings) (text : String) :
    Except FormulaError Calculator :=
  match Evaluation.of c.dialect bindings text with
  | .error reason => .error reason
  | .ok e => .ok { c with last := some e }

/-- The calculator after evaluating the conjugate of a text. -/
def evaluateConjugate (c : Calculator) (bindings : Bindings) (text : String) :
    Except FormulaError Calculator :=
  match Evaluation.of c.dialect bindings text with
  | .error reason => .error reason
  | .ok e => .ok { c with last := some e.conjugate }

/-- The normal form of the last success, empty before the first. -/
def normalized (c : Calculator) : String := (c.last.map Evaluation.normalized).getD ""

/-- The value of the last success. -/
def value? (c : Calculator) : Option Complex := c.last.map Evaluation.value

/-- The syntax tree of the last success. -/
def tree? (c : Calculator) : Option Tree := c.last.map Evaluation.tree

/-- The last syntax tree in prefix notation. -/
def prefixText? (c : Calculator) : Option String := c.last.map Evaluation.prefixText

/-- The drawing of the last success. -/
def drawing? (c : Calculator) : Option Drawing := c.last.map Evaluation.drawing

/-- Whether two calculators hold equal syntax trees, or both none. -/
def sameTree (c d : Calculator) : Bool :=
  match c.tree?, d.tree? with
  | none, none => true
  | some s, some t => s.same t
  | _, _ => false

end Calculator

/-- The value of a text in the default dialect. -/
def evaluate (bindings : Bindings) (text : String) : Except FormulaError Complex :=
  (Evaluation.of {} bindings text).map Evaluation.value

end ComplexFormula
