/-
# Formulas

A formula as it is read: operands are constants and names, and a sign is told apart from a
difference.

* `Formula.evaluate` : the value of a formula under some bindings;
* `Formula.tree` : the syntax tree that shows it.
-/
import ComplexFormula.Formula.Error
import ComplexFormula.Tree

namespace ComplexFormula

/-- The operands of a formula. -/
inductive Operand where
  /-- A numeral or a parenthesised literal, with its value. -/
  | constant (text : String) (value : Complex)
  /-- A variable. -/
  | name (text : String)
  deriving DecidableEq

/-- What is done to one operand: it is negated, or an operation is applied to it. -/
inductive Modifier where
  | negation
  | operation (op : UnaryOperator)
  deriving DecidableEq

/-- A formula. -/
abbrev Formula := Term Operand Modifier BinaryOperator

/-- The text of an operand. -/
def Operand.text : Operand → String
  | constant text _ => text
  | name text => text

/-! ## Values -/

/-- The value of an operand under some bindings. -/
def Operand.evaluate (bindings : Bindings) : Operand → Except FormulaError Complex
  | constant _ value => .ok value
  | name text =>
    match bindings.resolve? text with
    | some value => .ok value
    | none => .error (.unknownVariable text)

/-- The effect of a modifier. A sign multiplies both parts by minus one. -/
def Modifier.apply : Modifier → Complex → Except FormulaError Complex
  | negation, z => .ok (z.scale (-1))
  | operation op, z => (op.apply z).mapError .undefined

namespace Formula

/-- How the value of a formula is made up. Of two operands without a value, the left one
gives the reason. -/
def valueAlgebra (bindings : Bindings) :
    Term.Algebra Operand Modifier BinaryOperator (Except FormulaError Complex) where
  leaf := Operand.evaluate bindings
  unary op operand := do op.apply (← operand)
  binary op left right := do
    let z ← left
    let w ← right
    (op.apply z w).mapError .undefined

/-- The value of a formula under some bindings. -/
def evaluate (bindings : Bindings) (f : Formula) : Except FormulaError Complex :=
  f.walk (valueAlgebra bindings)

/-! ## Syntax trees -/

/-- How the tree of a formula is made up. A sign is shown as a difference from `0`. -/
def treeAlgebra : Term.Algebra Operand Modifier BinaryOperator Tree where
  leaf operand := .leaf operand.text
  unary
    | .negation, operand => Tree.negation operand
    | .operation op, operand => .unary op operand
  binary := .binary

/-- The syntax tree of a formula. -/
def tree (f : Formula) : Tree := f.walk treeAlgebra

end Formula

end ComplexFormula
