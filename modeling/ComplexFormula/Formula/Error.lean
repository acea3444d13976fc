/-
# Why a formula has no value

A formula may be malformed, name an unknown variable, or apply an operation where it is
undefined. Positions count the characters of the normal form from zero.
-/
import ComplexFormula.Complex.Literal
import ComplexFormula.Operator

namespace ComplexFormula

/-! ## Malformed texts -/

/-- The reasons why a text is no formula. -/
inductive SyntaxError where
  /-- The parenthesis at a position is never closed. -/
  | unclosedParenthesis (position : Nat)
  /-- An operand should begin at a position, where `found` is no numeral. -/
  | numeralExpected (position : Nat) (found : String)
  /-- Something is left after a complete formula, up to the end of its group. -/
  | unexpectedText (position : Nat) (text : String)
  /-- More groups, calls and roots are open than the dialect allows. -/
  | nestedTooDeep (limit : Nat)
  deriving DecidableEq

/-- The sentence that states a reason. -/
def SyntaxError.message : SyntaxError → String
  | unclosedParenthesis position => "unclosed parenthesis opened at " ++ toString position
  | numeralExpected position found =>
    "expected a number at " ++ toString position ++ ", found `" ++ found ++ "`"
  | unexpectedText position text =>
    "unexpected input `" ++ text ++ "` at " ++ toString position
  | nestedTooDeep limit => "expression nested deeper than " ++ toString limit ++ " levels"

/-! ## Formulas without a value -/

/-- The reasons why a formula has no value. -/
inductive FormulaError where
  | badLiteral (reason : LiteralError)
  | malformed (reason : SyntaxError)
  | unknownVariable (name : String)
  | undefined (reason : ArithmeticError)
  deriving DecidableEq

/-- The sentence that states a reason. -/
def FormulaError.message : FormulaError → String
  | badLiteral reason => "invalid complex literal: " ++ reason.message
  | malformed reason => reason.message
  | unknownVariable name => "unknown variable `" ++ name ++ "`"
  | undefined reason => reason.message

end ComplexFormula
