/-
# Refused command lines

The reasons why a command line is refused, and how they are reported.

* `ArgumentError.report` : a report for a terminal, in which some parts are set off;
* `ArgumentError.plainReport` : the same without control sequences.

A part that is set off ends by a sequence of its own, so what the user has typed there cannot
change how the rest of the report is shown. The reason given for a bad value is not set off.
-/
import ComplexFormula.Command.Options
import ComplexFormula.Text.ControlSequence

namespace ComplexFormula

/-! ## Parts that are set off -/

/-- Why a part of a report is set off. -/
inductive Highlight where
  /-- It opens the report. -/
  | heading
  /-- It is to be typed as it stands. -/
  | literal
  /-- It is what the user has typed. -/
  | invalid
  deriving DecidableEq

namespace Highlight

/-- The sequences that begin a part: bold red, bold, yellow. -/
def opening : Highlight → String
  | heading => "\x1b[1m\x1b[31m"
  | literal => "\x1b[1m"
  | invalid => "\x1b[33m"

/-- A text that is set off. -/
def apply (h : Highlight) (text : String) : String :=
  h.opening ++ text ++ "\x1b[0m"

/-- A text that is set off, between single quotes. -/
def quote (h : Highlight) (text : String) : String :=
  "'" ++ h.apply text ++ "'"

end Highlight

/-! ## What can be wrong -/

/-- The reasons why a command line is refused. -/
inductive ArgumentError where
  /-- An option that does not exist, or a second formula. -/
  | unexpectedArgument (text : String)
  /-- A setting without a value. -/
  | missingValue (setting : Setting)
  /-- An option that was given before. -/
  | repeated (usage : String)
  /-- A switch with a value. -/
  | unexpectedValue (value : String) (switch : Switch)
  /-- A setting whose value cannot be read. -/
  | badValue (setting : Setting) (value : String) (reason : String)
  deriving DecidableEq

namespace ArgumentError

/-- The sentence that states a reason. -/
def sentence : ArgumentError → String
  | unexpectedArgument text =>
    "unexpected argument " ++ Highlight.invalid.quote text ++ " found"
  | missingValue setting =>
    "a value is required for " ++ Highlight.invalid.quote setting.usage ++
      " but none was supplied"
  | repeated usage =>
    "the argument " ++ Highlight.invalid.quote usage ++ " cannot be used multiple times"
  | unexpectedValue value switch =>
    "unexpected value " ++ Highlight.invalid.quote value ++ " for " ++
      Highlight.literal.quote switch.usage ++ " found; no more were expected"
  | badValue setting value reason =>
    "invalid value " ++ Highlight.invalid.quote value ++ " for " ++
      Highlight.literal.quote setting.usage ++ ": " ++ reason

/-- The report for a terminal: the reason, and where to learn more. -/
def report (e : ArgumentError) : String :=
  Highlight.heading.apply "error:" ++ " " ++ e.sentence ++
    "\n\nFor more information, try " ++ Highlight.literal.quote Switch.help.usage ++ ".\n"

/-- The report for anything else. -/
def plainReport (e : ArgumentError) : String :=
  withoutControls e.report

end ArgumentError

end ComplexFormula
