/-
# Functions and operators

The closed sets of operations that a formula may apply, with their spellings and their
effect on complex numbers.

* `RealFunction` : sine, cosine and tangent of degrees, and the decimal logarithm;
* `BinaryOperator` : `+ - * / ^`;
* `UnaryOperator` : the square root, a function call, and conjugation.
-/
import ComplexFormula.Complex.Polar
import ComplexFormula.Complex.Canonical

namespace ComplexFormula

/-! ## Functions of a real argument -/

/-- The functions that a formula can call. -/
inductive RealFunction where
  | sin
  | cos
  | tan
  | log
  deriving DecidableEq

namespace RealFunction

/-- All functions, in the order in which they are listed. -/
def all : List RealFunction := [sin, cos, tan, log]

/-- The name by which a formula calls a function. -/
def name : RealFunction → String
  | sin => "sin"
  | cos => "cos"
  | tan => "tan"
  | log => "log"

/-- The function of a given name. -/
def ofName? (word : String) : Option RealFunction :=
  all.find? fun f => f.name == word

/-- A name finds the function that has it. -/
theorem ofName?_eq_some {word : String} {f : RealFunction} (h : ofName? word = some f) :
    f.name = word := by
  have hname := List.find?_some (p := fun g : RealFunction => g.name == word) h
  exact eq_of_beq hname

/-- Every function is found by its name. -/
theorem ofName?_name (f : RealFunction) : ofName? f.name = some f := by
  cases f <;> rfl

/-- One degree in radians. -/
def degree : Float := 3.141592653589793 / 180

/-- Whether a function is defined at a real number. -/
def isDefinedAt : RealFunction → Float → Bool
  | log, x => x > 0
  | _, _ => true

/-- The value at a real number; angles are in degrees. -/
def realValue : RealFunction → Float → Float
  | sin, x => (x * degree).sin
  | cos, x => (x * degree).cos
  | tan, x => (x * degree).tan
  | log, x => x.log10

end RealFunction

/-! ## What an operation may refuse -/

/-- The reasons why an operation has no value. -/
inductive ArithmeticError where
  | divisionByZero
  | complexArgument (function : RealFunction) (argument : Complex)
  | complexExponent (exponent : Complex)
  | outsideDomain (function : RealFunction) (argument : Complex)
  deriving DecidableEq

/-- The sentence that states a reason. -/
def ArithmeticError.message : ArithmeticError → String
  | divisionByZero => "division by zero"
  | complexArgument function argument =>
    "function `" ++ function.name ++ "` requires a real argument, got " ++ argument.canonical
  | complexExponent exponent => "exponent must be a real number, got " ++ exponent.canonical
  | outsideDomain function argument =>
    "`" ++ function.name ++ "` is undefined for " ++ argument.canonical

/-- The value of a function at a complex number, which has to be real and in the domain of
the function. -/
def RealFunction.apply (f : RealFunction) (z : Complex) : Except ArithmeticError Complex :=
  if z.im != 0 then .error (.complexArgument f z)
  else if !f.isDefinedAt z.re then .error (.outsideDomain f z)
  else .ok (.ofReal (f.realValue z.re))

/-! ## Operators between two operands -/

/-- The mark of a product that is implied by juxtaposition: the invisible times sign. -/
def invisibleTimes : Char := '\u2062'

/-- The operators between two operands. -/
inductive BinaryOperator where
  | add
  | sub
  | mul
  | div
  | pow
  deriving DecidableEq

namespace BinaryOperator

/-- All operators, in the order in which they are listed. -/
def all : List BinaryOperator := [add, sub, mul, div, pow]

/-- The character that spells an operator. -/
def symbol : BinaryOperator → Char
  | add => '+'
  | sub => '-'
  | mul => '*'
  | div => '/'
  | pow => '^'

/-- The operator that a character spells; an implied product is a product. -/
def ofChar? (c : Char) : Option BinaryOperator :=
  if c = invisibleTimes then some mul else all.find? fun op => op.symbol == c

/-- Sums and differences, which bind most loosely. -/
def isAdditive : BinaryOperator → Bool
  | add | sub => true
  | _ => false

/-- Products and quotients. -/
def isMultiplicative : BinaryOperator → Bool
  | mul | div => true
  | _ => false

/-- The value of an operation. An exponent has to be real. -/
def apply : BinaryOperator → Complex → Complex → Except ArithmeticError Complex
  | add, z, w => .ok (z + w)
  | sub, z, w => .ok (z - w)
  | mul, z, w => .ok (z * w)
  | div, z, w =>
    match z.div? w with
    | some quotient => .ok quotient
    | none => .error .divisionByZero
  | pow, z, w => if w.im != 0 then .error (.complexExponent w) else .ok (z.pow w.re)

end BinaryOperator

/-! ## Operations on one operand -/

/-- The sign of the square root, written before its operand. -/
def rootSign : Char := '√'

/-- The operations on one operand. -/
inductive UnaryOperator where
  | root
  | call (function : RealFunction)
  | conjugate
  deriving DecidableEq

namespace UnaryOperator

/-- How an operation is shown. -/
def label : UnaryOperator → String
  | root => "√"
  | call f => f.name
  | conjugate => "conjugado"

/-- The operation that is shown as a given text. -/
def ofLabel? (word : String) : Option UnaryOperator :=
  if word = root.label then some root
  else if word = conjugate.label then some conjugate
  else (RealFunction.ofName? word).map call

/-- The value of an operation. The root of a real number is taken without the polar form,
and so is exact. -/
def apply : UnaryOperator → Complex → Except ArithmeticError Complex
  | root, z => .ok (if z.im == 0 then .sqrtReal z.re else z.pow 0.5)
  | call f, z => f.apply z
  | conjugate, z => .ok z.conjugate

end UnaryOperator

end ComplexFormula
