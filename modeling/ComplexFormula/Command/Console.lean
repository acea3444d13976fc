/-
# Consoles

Where a command reads its input and writes its output: an input of lines, an output, and
an output for prompts and errors.

* `Console` : a console in any monad;
* `Transcript.console` : a console whose input is a given text and whose output is kept.
-/

namespace ComplexFormula

/-! ## Consoles -/

/-- A way to talk to the user. -/
structure Console (m : Type → Type) where
  /-- Writes to the output. -/
  print : String → m Unit
  /-- Writes to the output for prompts and errors. -/
  complain : String → m Unit
  /-- The next line of the input with its line feed; empty at the end of the input. -/
  readLine : m String

/-- A line without the line feeds and carriage returns at its end. -/
def withoutLineEnd (line : List Char) : List Char :=
  (line.reverse.dropWhile fun c => c == '\n' || c == '\r').reverse

/-- The next line of the input without its end, if there is one. -/
def Console.nextLine? {m : Type → Type} [Monad m] (console : Console m) : m (Option String) := do
  let line ← console.readLine
  return if line.isEmpty then none else some (String.ofList (withoutLineEnd line.toList))

/-! ## Consoles on a text -/

/-- What is left of the input, and what has been written. -/
structure Transcript where
  input : List Char
  output : String := ""
  errors : String := ""

namespace Transcript

/-- The first line of a text, with its line feed, and the rest. -/
def takeLine : List Char → List Char × List Char
  | [] => ([], [])
  | c :: rest =>
    if c = '\n' then ([c], rest)
    else
      let (line, after) := takeLine rest
      (c :: line, after)

/-- The console that reads from a transcript and writes to it. -/
def console : Console (StateM Transcript) where
  print text := modify fun t => { t with output := t.output ++ text }
  complain text := modify fun t => { t with errors := t.errors ++ text }
  readLine := do
    let t ← get
    let (line, rest) := takeLine t.input
    set { t with input := rest }
    return String.ofList line

end Transcript

end ComplexFormula
