/-
# Arguments of the command

A command line holds at most one formula, and options.

* `Arguments` : what a command line asks for;
* `Invocation.ofArguments` : reads a command line.

Options may stand anywhere. A setting takes its value after `=` or as the next argument,
which may not begin with a dash; it is read when the next option is accepted, or at the end.
After `--` nothing is an option.
-/
import ComplexFormula.Bindings
import ComplexFormula.Command.ArgumentError
import ComplexFormula.Command.Natural
import ComplexFormula.Command.Options
import ComplexFormula.Complex.Literal
import ComplexFormula.Dialect

namespace ComplexFormula

/-! ## What can be asked for -/

/-- What a command line asks for. -/
structure Arguments where
  /-- The formula; without one, it is read from the input. -/
  expression : Option String := none
  /-- The variables bound by the command line, in order. -/
  bindings : List (String × Complex) := []
  /-- A formula whose syntax tree is compared with that of the first one. -/
  compare : Option String := none
  /-- The limit of nesting, if one is given. -/
  nestingLimit : Option Nat := none
  /-- The switches that are on. -/
  switches : List Switch := []

namespace Arguments

/-- Whether a switch is on. -/
def has (a : Arguments) (s : Switch) : Bool := a.switches.contains s

/-- The dialect that the command line chooses. -/
def dialect (a : Arguments) : Dialect :=
  let standard : Dialect := {}
  { functions := !a.has .noFunctions
    longNames := !a.has .singleLetters
    impliedProducts := !a.has .explicitProducts
    nestingLimit := a.nestingLimit.getD standard.nestingLimit }

end Arguments

/-- What a command line amounts to. -/
inductive Invocation where
  /-- The version is shown. -/
  | version
  /-- The options are explained. -/
  | help
  /-- A formula is evaluated. -/
  | evaluate (arguments : Arguments)

/-! ## Values of settings -/

/-- Reads a binding: a name, an equals sign and a complex literal. -/
def readBinding (value : String) : Except String (String × Complex) :=
  let s := value.toList
  match s.dropWhile fun c => c != '=' with
  | [] => .error ("expected NAME=VALUE, got `" ++ value ++ "`")
  | _ :: literal =>
    let name := String.ofList (trimBlanks (s.takeWhile fun c => c != '='))
    if name.isEmpty then .error ("missing variable name in `" ++ value ++ "`")
    else
      match Complex.ofLiteral (String.ofList literal) with
      | .ok z => .ok (name, z)
      | .error reason => .error reason.message

/-- The arguments with one more setting. Only bindings may be repeated. -/
def Arguments.set (a : Arguments) (setting : Setting) (value : String) :
    Except ArgumentError Arguments :=
  match setting with
  | .binding =>
    match readBinding value with
    | .ok pair => .ok { a with bindings := a.bindings ++ [pair] }
    | .error reason => .error (.badValue setting value reason)
  | .compare =>
    if a.compare.isSome then .error (.repeated setting.usage)
    else .ok { a with compare := some value }
  | .nestingLimit =>
    if a.nestingLimit.isSome then .error (.repeated setting.usage)
    else
      match readNatural value.toList with
      | .ok limit => .ok { a with nestingLimit := some limit }
      | .error reason => .error (.badValue setting value reason.message)

/-- The arguments with one more switch on. -/
def Arguments.switchOn (a : Arguments) (switch : Switch) : Except ArgumentError Arguments :=
  if a.has switch then .error (.repeated switch.usage)
  else .ok { a with switches := a.switches ++ [switch] }

/-! ## Reading the command line -/

/-- A setting that has been named, and its value once that has been given. -/
abbrev PendingSetting := Setting × Option String

/-- Reads the value of a pending setting. -/
def Arguments.settle (a : Arguments) : Option PendingSetting → Except ArgumentError Arguments
  | none => .ok a
  | some (setting, none) => .error (.missingValue setting)
  | some (setting, some value) => a.set setting value

/-- How an argument reads where options may stand. -/
inductive ArgumentForm where
  /-- Two dashes: everything after them is an operand. -/
  | endOfOptions
  /-- Two dashes and a name, perhaps with a value after an equals sign. -/
  | long (name : String) (value : Option String)
  /-- One dash and a letter, perhaps with more behind it. -/
  | short (letter : Char)
  /-- Anything else; a single dash is an operand too. -/
  | operand
  deriving DecidableEq

/-- The form of an argument. -/
def ArgumentForm.of (argument : String) : ArgumentForm :=
  match argument.toList with
  | ['-', '-'] => endOfOptions
  | '-' :: '-' :: rest =>
    let name := String.ofList (rest.takeWhile fun c => c != '=')
    match rest.dropWhile fun c => c != '=' with
    | [] => long name none
    | _ :: value => long name (some (String.ofList value))
  | '-' :: letter :: _ => short letter
  | _ => operand

namespace Invocation

/-- Takes an argument as the formula; there can be only one. -/
def takeOperand (a : Arguments) (pending : Option PendingSetting) (argument : String) :
    Except ArgumentError Arguments :=
  if a.expression.isSome then .error (.unexpectedArgument argument)
  else do
    let a ← a.settle pending
    return { a with expression := some argument }

/-- Reads the arguments after `--`. -/
def ofOperands (a : Arguments) (pending : Option PendingSetting) :
    List String → Except ArgumentError Invocation
  | [] => do return evaluate (← a.settle pending)
  | argument :: rest => do
    let a ← takeOperand a pending argument
    ofOperands a none rest

/-- Reads the arguments where options may stand. -/
def ofOptions (a : Arguments) (pending : Option PendingSetting) :
    List String → Except ArgumentError Invocation
  | [] => do return evaluate (← a.settle pending)
  | argument :: rest =>
    match ArgumentForm.of argument with
    | .endOfOptions => ofOperands a pending rest
    | .long name value =>
      match Setting.all.find? (·.name == name), Switch.all.find? (·.name == name), value with
      | some setting, _, none => do
        let a ← a.settle pending
        ofOptions a (some (setting, none)) rest
      | some setting, _, some value => do
        let a ← a.settle pending
        let a ← a.set setting value
        ofOptions a none rest
      | none, some switch, some value => .error (.unexpectedValue value switch)
      | none, some .version, none => do
        let _ ← a.settle pending
        return version
      | none, some .help, none => do
        let _ ← a.settle pending
        return help
      | none, some switch, none => do
        let a ← a.settle pending
        let a ← a.switchOn switch
        ofOptions a none rest
      | none, none, _ => .error (.unexpectedArgument ("--" ++ name))
    | .short letter =>
      if letter = 'V' then do
        let _ ← a.settle pending
        return version
      else if letter = 'h' then do
        let _ ← a.settle pending
        return help
      else .error (.unexpectedArgument (String.ofList ['-', letter]))
    | .operand =>
      match pending with
      | some (setting, none) => ofOptions a (some (setting, some argument)) rest
      | pending => do
        let a ← takeOperand a pending argument
        ofOptions a none rest

/-- Reads a command line. -/
def ofArguments (arguments : List String) : Except ArgumentError Invocation :=
  ofOptions {} none arguments

end Invocation

end ComplexFormula
