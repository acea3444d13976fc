/-
# Asking for values

The variables of a formula that have no value yet are asked for, one at a time.

* `Bindings.askFor` : asks for the values of some names;
* `Bindings.complete` : asks for the values that a formula needs.

The questions are put in any monad: at a terminal, or to a list of prepared answers.
-/
import ComplexFormula.Complex.Literal
import ComplexFormula.Normal

namespace ComplexFormula

/-- The reasons why a name got no value. -/
inductive BindingError where
  /-- There was no answer, or a blank one. -/
  | cancelled (name : String)
  /-- The answer was no complex literal. -/
  | badAnswer (name : String) (reason : LiteralError)
  deriving DecidableEq

namespace BindingError

/-- The sentence that states a reason. -/
def message : BindingError → String
  | cancelled name => "no value supplied for `" ++ name ++ "`"
  | badAnswer name reason => "invalid value for `" ++ name ++ "`: " ++ reason.message

/-- The sentence that states what lies behind a reason. -/
def cause? : BindingError → Option String
  | cancelled _ => none
  | badAnswer _ reason => some reason.message

end BindingError

namespace Bindings

/-- The value that an answer gives to a name. -/
def readAnswer (name : String) : Option String → Except BindingError Complex
  | none => .error (.cancelled name)
  | some answer =>
    if (trimBlanks answer.toList).isEmpty then .error (.cancelled name)
    else (Complex.ofLiteral answer).mapError (.badAnswer name)

/-- Asks for the value of each name that the table does not bind, in order, up to the first
name that gets none. -/
def askFor {m : Type → Type} [Monad m] (prompt : String → m (Option String)) :
    (names : List String) → (known : Bindings) → m (Except BindingError Bindings)
  | [], known => pure (.ok known)
  | name :: rest, known =>
    if known.contains name then askFor prompt rest known
    else do
      match readAnswer name (← prompt name) with
      | .error reason => pure (.error reason)
      | .ok value => askFor prompt rest (known.insert name value)

/-- Asks for the values of the variables of a text that the table does not bind. -/
def complete {m : Type → Type} [Monad m] (prompt : String → m (Option String))
    (dialect : Dialect) (text : String) (known : Bindings) :
    m (Except BindingError Bindings) :=
  askFor prompt (variableNames dialect text) known

end Bindings

end ComplexFormula
