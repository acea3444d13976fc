/-
# The command

Reads the command line and runs the command at the terminal. A refused command line gives
exit code 2.
-/
import ComplexFormula.Command.Run

namespace ComplexFormula

/-- The console of the process. -/
def terminal : Console IO where
  print text := do
    let output ← IO.getStdout
    output.putStr text
    output.flush
  complain text := do
    let errors ← IO.getStderr
    errors.putStr text
    errors.flush
  readLine := do
    let input ← IO.getStdin
    input.getLine

end ComplexFormula

open ComplexFormula in
/-- The entry point. -/
def main (arguments : List String) : IO UInt32 := do
  match Invocation.ofArguments arguments with
  | .error reason =>
    terminal.complain (if ← (← IO.getStderr).isTty then reason.report else reason.plainReport)
    return 2
  | .ok invocation => return UInt32.ofNat (← Command.run terminal invocation)
