/-
# The fields of a calculator

A calculator in use has one field for each part of its last success. A call assigns them one
after another, and what was assigned before a failure would stay.

* `Calculator.Fields.commit` : the assignments after a success;
* `Calculator.Fields.evaluate`, `Calculator.Fields.evaluateConjugate` : the calls;
* `Calculator.Fields.prefixText?`, `Calculator.Fields.drawing?`, `Calculator.Fields.sameTree` :
  what is shown of the fields.
-/
import ComplexFormula.Calculator

namespace ComplexFormula.Calculator

/-- The fields of a calculator. Before the first success two of them are empty and the others
have no content. -/
structure Fields where
  dialect : Dialect := {}
  normalized : String := ""
  bindings : Bindings := .empty
  tree? : Option Tree := none
  value? : Option Complex := none
  deriving DecidableEq

namespace Fields

/-- What may change the fields and fail. A failure leaves them as they are at that moment. -/
abbrev Program := EStateM FormulaError Fields

/-- A result as a program. -/
def result {α : Type} : Except FormulaError α → Program α
  | .ok x => return x
  | .error reason => throw reason

/-- Assigns the parts of a success, and returns its value. -/
def commit (normalized : String) (bindings : Bindings) (tree : Tree) (value : Complex) :
    Program Complex := do
  modify fun s => { s with normalized := normalized }
  modify fun s => { s with bindings := bindings }
  modify fun s => { s with tree? := some tree }
  modify fun s => { s with value? := some value }
  return value

/-- Evaluates a text without a change to the fields. -/
def parse (bindings : Bindings) (text : String) : Program Evaluation := do
  result (Evaluation.of (← get).dialect bindings text)

/-- Evaluates a text and keeps the success. -/
def evaluate (bindings : Bindings) (text : String) : Program Complex := do
  let e ← parse bindings text
  commit e.normalized bindings e.tree e.value

/-- Evaluates the conjugate of a text and keeps the success. -/
def evaluateConjugate (bindings : Bindings) (text : String) : Program Complex := do
  let e ← parse bindings text
  let value ← result ((UnaryOperator.conjugate.apply e.value).mapError .undefined)
  commit e.normalized bindings (.unary .conjugate e.tree) value

/-! ## What is shown -/

/-- The tree in prefix notation. -/
def prefixText? (s : Fields) : Option String := s.tree?.map Tree.prefixText

/-- The drawing of the tree under the value, with the values of the names at the time. -/
def drawing? (s : Fields) : Option Drawing := do
  let t ← s.tree?
  let z ← s.value?
  return Tree.execution s.bindings z t

/-- Whether two calculators hold equal trees, or both none. -/
def sameTree (s s' : Fields) : Bool :=
  match s.tree?, s'.tree? with
  | none, none => true
  | some t, some t' => t.same t'
  | _, _ => false

end Fields

end ComplexFormula.Calculator
