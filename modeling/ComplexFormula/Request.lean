/-
# Requests

A formula together with everything that its evaluation depends on, set up step by step.
-/
import ComplexFormula.Calculator

namespace ComplexFormula

/-- A formula to be evaluated. -/
structure Request where
  formula : String
  bindings : Bindings := .empty
  dialect : Dialect := {}
  conjugated : Bool := false

namespace Request

/-- The request with more bindings, which come before those of the same name. -/
def withBindings (r : Request) (bindings : Bindings) : Request :=
  { r with bindings := r.bindings.insertAll bindings.entries }

/-- The request in another dialect. -/
def withDialect (r : Request) (dialect : Dialect) : Request := { r with dialect }

/-- The request with another limit of nesting. -/
def withNestingLimit (r : Request) (limit : Nat) : Request :=
  { r with dialect := { r.dialect with nestingLimit := limit } }

/-- The request for the conjugate value. -/
def conjugate (r : Request) : Request := { r with conjugated := true }

/-- A calculator that holds the outcome. -/
def evaluate (r : Request) : Except FormulaError Calculator :=
  let calculator : Calculator := { dialect := r.dialect }
  if r.conjugated then calculator.evaluateConjugate r.bindings r.formula
  else calculator.evaluate r.bindings r.formula

end Request

end ComplexFormula
