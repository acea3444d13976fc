/-
# Running the command

The command evaluates one formula, asks for the variables that were not given, and prints
the value with whatever else was asked for.

* `Command.run` : runs the command and gives its exit code.
-/
import ComplexFormula.Bindings.Dialogue
import ComplexFormula.Calculator
import ComplexFormula.Command.Arguments
import ComplexFormula.Command.Console

namespace ComplexFormula.Command

variable {m : Type → Type} [Monad m]

/-! ## Failures -/

/-- The reasons why a run ends early. -/
inductive Failure where
  /-- The input holds no formula. -/
  | noExpression
  /-- A variable got no value. -/
  | unbound (reason : BindingError)
  /-- A formula has no value. -/
  | noValue (text : String) (reason : FormulaError)
  deriving DecidableEq

namespace Failure

/-- The sentence that states a reason. -/
def message : Failure → String
  | noExpression => "no expression given"
  | unbound reason => reason.message
  | noValue text _ => "failed to evaluate `" ++ text ++ "`"

/-- The sentence that states what lies behind a reason. -/
def cause? : Failure → Option String
  | noExpression => none
  | unbound reason => reason.cause?
  | noValue _ reason => some reason.message

/-- What is shown of a failure. -/
def report (f : Failure) : String :=
  match f.cause? with
  | none => "Error: " ++ f.message ++ "\n"
  | some cause => "Error: " ++ f.message ++ "\n\nCaused by:\n    " ++ cause ++ "\n"

end Failure

/-! ## The steps of a run -/

/-- The formula of the command line, or else the first line of the input. -/
def readExpression (console : Console m) (a : Arguments) : m (Except Failure String) := do
  match a.expression with
  | some expression => return .ok expression
  | none =>
    match ← console.nextLine? with
    | none => return .error .noExpression
    | some line =>
      return if (trimBlanks line.toList).isEmpty then .error .noExpression else .ok line

/-- Asks for the value of a name. -/
def prompt (console : Console m) (name : String) : m (Option String) := do
  console.complain (name ++ " = ")
  console.nextLine?

/-- The bindings of the command line, completed for both formulas. -/
def collect (console : Console m) (a : Arguments) (expression : String) :
    m (Except Failure Bindings) := do
  match ← Bindings.complete (prompt console) a.dialect expression (.ofList a.bindings) with
  | .error reason => return .error (.unbound reason)
  | .ok bindings =>
    match a.compare with
    | none => return .ok bindings
    | some other =>
      return (← Bindings.complete (prompt console) a.dialect other bindings).mapError .unbound

/-- The evaluation of a formula, of its conjugate if `conjugated` holds. -/
def evaluate (a : Arguments) (bindings : Bindings) (conjugated : Bool) (text : String) :
    Except Failure Calculator :=
  let calculator : Calculator := { dialect := a.dialect }
  let outcome :=
    if conjugated then calculator.evaluateConjugate bindings text
    else calculator.evaluate bindings text
  outcome.mapError (.noValue text)

/-- What is printed of the first formula: its value, and its tree in the forms asked for. -/
def results (a : Arguments) (calculator : Calculator) : String :=
  let value := calculator.last.map fun e => e.value.canonical ++ "\n"
  let drawing := if a.has .tree then calculator.drawing?.map Drawing.render else none
  let prefixLine := if a.has .prefixText then calculator.prefixText?.map (· ++ "\n") else none
  value.getD "" ++ drawing.getD "" ++ prefixLine.getD ""

/-- Compares the tree of the first formula with that of another one, and prints whether they
are equal. -/
def compareWith (console : Console m) (a : Arguments) (bindings : Bindings)
    (calculator : Calculator) (other : String) : m (Except Failure Unit) := do
  match evaluate a bindings false other with
  | .error failure => return .error failure
  | .ok second =>
    console.print ("structurally equal: " ++ toString (calculator.sameTree second) ++ "\n")
    return .ok ()

/-- All steps, up to the first failure. -/
def steps (console : Console m) (a : Arguments) : m (Except Failure Unit) := do
  match ← readExpression console a with
  | .error failure => return .error failure
  | .ok expression =>
    match ← collect console a expression with
    | .error failure => return .error failure
    | .ok bindings =>
      match evaluate a bindings (a.has .conjugate) expression with
      | .error failure => return .error failure
      | .ok calculator =>
        console.print (results a calculator)
        match a.compare with
        | none => return .ok ()
        | some other => compareWith console a bindings calculator other

/-! ## The run -/

/-- What is shown for the version. -/
def versionLine : String := "calcplex 0.1.0\n"

/-- Runs the command and gives its exit code: one after a failure. -/
def run (console : Console m) : Invocation → m Nat
  | .version => do
    console.print versionLine
    return 0
  | .help => do
    console.print helpText
    return 0
  | .evaluate a => do
    match ← steps console a with
    | .ok () => return 0
    | .error failure =>
      console.complain failure.report
      return 1

end ComplexFormula.Command
