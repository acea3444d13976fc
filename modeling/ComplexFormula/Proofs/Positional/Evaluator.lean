/-
# Evaluation by positions

A formula is evaluated while it is read: a cursor walks over the positions of the normal
form, counts the groups, calls and roots that are open, and each part has its syntax tree and
its value as soon as it is read. The operators of a chain and the symbols that are nested in
one another are limited by the length of the text; where a limit is reached the next step is
not defined.

* `Run` : programs that move a cursor, and may find a reason to stop or come to a step that
  is not defined;
* `symbol` : evaluates a symbol of the notation;
* `evaluate`, `evaluateConjugate` : the calls of a calculator.
-/
import ComplexFormula.Calculator
import ComplexFormula.Proofs.Grammar.Outcome
import ComplexFormula.Proofs.Positional.Literal
import ComplexFormula.Proofs.Positional.Normal

namespace ComplexFormula.Positional

/-! ## Programs with a cursor -/

/-- A position in a text, and how many groups, calls and roots are open there. -/
structure Cursor where
  position : Nat
  depth : Nat
  deriving DecidableEq

/-- Programs that move a cursor. They have no outcome where a step is not defined. -/
abbrev Run := StateT Cursor (ExceptT FormulaError Option)

/-- A part of a formula that has been read: its syntax tree and its value. -/
structure Evaluated where
  tree : Tree
  value : Complex

/-- What is to be evaluated: a text, its dialect, and the bindings of its names. -/
structure Task where
  dialect : Dialect
  bindings : Bindings
  text : List Char

namespace Evaluated

/-- The outcome of an operation on one operand. -/
def unary (op : UnaryOperator) (operand : Evaluated) : Except FormulaError Evaluated :=
  match op.apply operand.value with
  | .error reason => .error (.undefined reason)
  | .ok value => .ok ⟨.unary op operand.tree, value⟩

/-- The outcome of an operator between two operands. -/
def binary (op : BinaryOperator) (left right : Evaluated) : Except FormulaError Evaluated :=
  match op.apply left.value right.value with
  | .error reason => .error (.undefined reason)
  | .ok value => .ok ⟨.binary op left.tree right.tree, value⟩

/-- The operand with a sign. -/
def negation (operand : Evaluated) : Evaluated :=
  ⟨Tree.negation operand.tree, operand.value.scale (-1)⟩

end Evaluated

/-! ## Steps -/

variable (task : Task)

/-- The outcome of a step that may not be defined. -/
def defined {α : Type} (step : Option α) : Run α := liftM step

/-- Stops for a reason. -/
def refuse {α : Type} (reason : SyntaxError) : Run α := throw (.malformed reason)

/-- The position of the cursor. -/
def here : Run Nat := return (← get).position

/-- The character at the cursor, unless it is behind the text. -/
def peek : Run (Option Char) := return task.text[← here]?

/-- Moves the cursor to a position. -/
def moveTo (position : Nat) : Run Unit := modify fun cursor => { cursor with position }

/-- Moves the cursor to the next position. -/
def advance : Run Unit := do moveTo ((← here) + 1)

/-- Opens a group, a call or a root, if the dialect allows one more. -/
def enter : Run Unit := do
  modify fun cursor => { cursor with depth := cursor.depth + 1 }
  if (← get).depth > task.dialect.nestingLimit then
    refuse (.nestedTooDeep task.dialect.nestingLimit)

/-- Closes what was opened last. -/
def leave : Run Unit := do
  let depth ← defined (← get).depth.ppred
  modify fun cursor => { cursor with depth }

/-! ## Outcomes of steps -/

section

variable {task} {cursor : Cursor} {α β : Type}

/-- The outcome of a program at a cursor: a value and where the cursor stands then, or the
reason why there is none. -/
def outcome (program : Run α) (cursor : Cursor) : Option (Except FormulaError (α × Cursor)) :=
  (program.run cursor).run

/-- A program goes on with the value of its first step. -/
theorem outcome_bind_of_ok {x : Run α} {f : α → Run β} {a : α} {cursor' : Cursor}
    (h : outcome x cursor = some (.ok (a, cursor'))) :
    outcome (x >>= f) cursor = outcome (f a) cursor' := by
  unfold outcome at h ⊢
  show (Option.bind (x cursor) _ : Option (Except FormulaError (β × Cursor))) = _
  rw [show x cursor = some (.ok (a, cursor')) from h]
  rfl

/-- A program stops where its first step does. -/
theorem outcome_bind_of_error {x : Run α} {f : α → Run β} {reason : FormulaError}
    (h : outcome x cursor = some (.error reason)) :
    outcome (x >>= f) cursor = some (.error reason) := by
  unfold outcome at h ⊢
  show (Option.bind (x cursor) _ : Option (Except FormulaError (β × Cursor))) = _
  rw [show x cursor = some (.error reason) from h]
  rfl

/-- The position of the cursor. -/
theorem outcome_here : outcome here cursor = some (.ok (cursor.position, cursor)) := rfl

/-- The character at the cursor. -/
theorem outcome_peek :
    outcome (peek task) cursor = some (.ok (task.text[cursor.position]?, cursor)) := rfl

/-- Moving the cursor. -/
theorem outcome_moveTo (position : Nat) :
    outcome (moveTo position) cursor = some (.ok ((), ⟨position, cursor.depth⟩)) := rfl

/-- Moving the cursor on. -/
theorem outcome_advance :
    outcome advance cursor = some (.ok ((), ⟨cursor.position + 1, cursor.depth⟩)) := rfl

/-- A step that is defined. -/
theorem outcome_defined (a : α) : outcome (defined (some a)) cursor = some (.ok (a, cursor)) := rfl

/-- A condition that is met. -/
theorem outcome_guard {p : Prop} [Decidable p] (h : p) :
    outcome (defined (guard p)) cursor = some (.ok ((), cursor)) := by
  rw [guard, if_pos h]
  rfl

/-- An operation that may have no value. -/
theorem outcome_lift (x : Except FormulaError α) :
    outcome (liftM x : Run α) cursor = some (x.map fun a => (a, cursor)) := by
  cases x <;> rfl

/-- Opening a group, a call or a root compares the depth with the limit. -/
theorem outcome_enter (position depth : Nat) :
    outcome (enter task) ⟨position, depth⟩
      = if depth + 1 > task.dialect.nestingLimit then
          some (.error (.malformed (.nestedTooDeep task.dialect.nestingLimit)))
        else some (.ok ((), ⟨position, depth + 1⟩)) := by
  show ((if depth + 1 > task.dialect.nestingLimit then
    refuse (.nestedTooDeep task.dialect.nestingLimit) else pure () : Run Unit)
      ⟨position, depth + 1⟩).run = _
  split
  · rfl
  · rfl

/-- One more is opened where the limit leaves room for it. -/
theorem outcome_enter_of_lt {position depth levels : Nat}
    (h : depth + (levels + 1) = task.dialect.nestingLimit) :
    outcome (enter task) ⟨position, depth⟩ = some (.ok ((), ⟨position, depth + 1⟩)) := by
  rw [outcome_enter, if_neg (by omega)]

/-- None is opened at the limit. -/
theorem outcome_enter_of_eq {position depth : Nat}
    (h : depth + 0 = task.dialect.nestingLimit) :
    outcome (enter task) ⟨position, depth⟩
      = some (.error (.malformed (.nestedTooDeep task.dialect.nestingLimit))) := by
  rw [outcome_enter, if_pos (by omega)]

/-- What was opened is closed. -/
theorem outcome_leave (position depth : Nat) :
    outcome leave ⟨position, depth + 1⟩ = some (.ok ((), ⟨position, depth⟩)) := rfl

example : outcome leave ⟨0, 0⟩ = none := rfl

end

/-! ## Parentheses -/

/-- The first position, from a given one on, at which as many parentheses are closed as were
opened. -/
def matchingCloseFrom (text : List Char) (level position : Nat) : Option (Option Nat) :=
  if position < text.length then do
    let c ← text[position]?
    if c = '(' then matchingCloseFrom text (level + 1) (position + 1)
    else if c = ')' then
      let level ← level.ppred
      if level = 0 then return some position else matchingCloseFrom text level (position + 1)
    else matchingCloseFrom text level (position + 1)
  else some none
termination_by text.length - position

/-- The position of the parenthesis that closes the one at a position. -/
def matchingClose (text : List Char) (opening : Nat) : Option (Option Nat) :=
  matchingCloseFrom text 0 opening

/-- Takes the parenthesis that closes the one at a position. What stands there instead
is not empty. -/
def expectClose (opening : Nat) : Run Unit := do
  if (← peek task) = some ')' then advance
  else
    match ← defined (matchingClose task.text opening) with
    | none => refuse (.unclosedParenthesis opening)
    | some close =>
      let position ← here
      defined (guard (position < close))
      let rest ← defined (slice? task.text position close)
      refuse (.unexpectedText position (String.ofList rest))

/-! ## Formulas -/

/-- Evaluates a numeral. -/
def numeral : Run Evaluated := do
  let start ← here
  let stop ← defined (runEnd Reader.isNumeralChar task.text start)
  moveTo stop
  if stop = start then
    refuse (.numeralExpected start (String.ofList (← peek task).toList))
  else
    let run ← defined (slice? task.text start stop)
    match Numeral.read? run with
    | none => refuse (.numeralExpected start (String.ofList run))
    | some numeral => return ⟨.leaf (String.ofList run), .ofReal numeral.toFloat⟩

/-- Goes on with a chain after its left part, as long as an operator of it follows. It is not
defined where more operators follow than the given number. -/
def chain (X : Precedence) (operand : Run Evaluated) : Nat → Evaluated → Run Evaluated
  | 0, _ => defined none
  | steps + 1, left => do
    match (← peek task).bind X.operator? with
    | none => return left
    | some op =>
      advance
      let right ← operand
      chain X operand steps (← liftM (left.binary op right))

section

variable (inner : Precedence → Run Evaluated)

/-- Evaluates a root. -/
def root : Run Evaluated := do
  advance
  enter task
  let operand ← inner .signed
  leave
  liftM (operand.unary .root)

/-- Evaluates what stands in the parentheses that open at a position, up to their end. -/
def enclosed (opening : Nat) : Run Evaluated := do
  let result ← inner .sum
  expectClose task opening
  leave
  return result

/-- Evaluates a group: a complex literal, or a formula in parentheses. -/
def group : Run Evaluated := do
  let opening ← here
  match ← defined (matchingClose task.text opening) with
  | none => refuse (.unclosedParenthesis opening)
  | some close =>
    enter task
    let content ← defined (slice? task.text (opening + 1) close)
    let text := literalText content
    match ← defined (ofLiteral text) with
    | .ok value =>
      moveTo (close + 1)
      leave
      return ⟨.leaf text, value⟩
    | .error _ =>
      moveTo (opening + 1)
      enclosed task inner opening

/-- Evaluates a function call or a name. -/
def identifier : Run Evaluated := do
  match ← defined (readIdentifier task.dialect task.text (← here)) with
  | (.call f, opening) =>
    moveTo (opening + 1)
    enter task
    let argument ← enclosed task inner opening
    liftM (argument.unary (.call f))
  | (.name letters, stop) =>
    match task.bindings.resolve? (String.ofList letters) with
    | none => throw (.unknownVariable (String.ofList letters))
    | some value =>
      moveTo stop
      return ⟨.leaf (String.ofList letters), value⟩

/-- Evaluates a symbol of the notation, given how the symbols in it are evaluated. A chain
has no more operators than the text has characters. -/
def layer : Precedence → Run Evaluated
  | .primary => do
    match ← peek task with
    | none => numeral task
    | some c =>
      if c = rootSign then root task inner
      else if c = '(' then group task inner
      else if isLetter c then identifier task inner
      else numeral task
  | .signed => do
    if (← peek task) = some '-' then
      advance
      return (← inner .primary).negation
    else inner .primary
  | X => do chain task X (inner X.tighter) (task.text.length + 1) (← inner X.tighter)

end

/-- Evaluates a symbol of the notation. It is not defined where a symbol would be nested more
deeply than in the given number of others. -/
def symbol : Nat → Precedence → Run Evaluated
  | 0, _ => defined none
  | steps + 1, X => layer task (symbol steps) X

/-- Evaluates the whole text. -/
def whole : Run Evaluated := do
  -- from the loosest symbol to the tightest there are five, at each position and at the end
  let result ← symbol task (5 * task.text.length + 5) .sum
  let position ← here
  if position < task.text.length then
    let rest ← defined (slice? task.text position task.text.length)
    refuse (.unexpectedText position (String.ofList rest))
  else return result

/-! ## Calls of a calculator -/

/-- Evaluates a text: its normal form, and what it evaluates to. -/
def parse (dialect : Dialect) (bindings : Bindings) (text : String) :
    ExceptT FormulaError Option (String × Evaluated) := do
  let normalized ← (liftM (normalize dialect text) : ExceptT FormulaError Option String)
  let (result, _) ← (whole ⟨dialect, bindings, normalized.toList⟩).run ⟨0, 0⟩
  return (normalized, result)

/-- The calculator with a success. -/
def commit (c : Calculator) (bindings : Bindings) (normalized : String) (result : Evaluated) :
    Calculator :=
  { c with last := some ⟨normalized, bindings, result.tree, result.value⟩ }

/-- The calculator after evaluating a text. -/
def evaluate (c : Calculator) (bindings : Bindings) (text : String) :
    ExceptT FormulaError Option Calculator := do
  let (normalized, result) ← parse c.dialect bindings text
  return commit c bindings normalized result

/-- The calculator after evaluating the conjugate of a text. -/
def evaluateConjugate (c : Calculator) (bindings : Bindings) (text : String) :
    ExceptT FormulaError Option Calculator := do
  let (normalized, result) ← parse c.dialect bindings text
  let conjugate ← (liftM (result.unary .conjugate) : ExceptT FormulaError Option Evaluated)
  return commit c bindings normalized conjugate

end ComplexFormula.Positional
