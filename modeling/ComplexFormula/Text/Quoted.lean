/-
# Quoted text

A text between double quotes, in which every character can be seen.

* `quoted` : a backslash stands before each quote and each backslash; line ends, tabs and
  the null character are written as letters after a backslash, and other characters
  without a form of their own by their code points, as in `\u{2062}`.
-/
import ComplexFormula.Text.Invisible

namespace ComplexFormula

/-- The code point of a character between braces. -/
def codePoint (c : Char) : List Char :=
  ['\\', 'u', '\x7b'] ++ Nat.toDigits 16 c.toNat ++ ['\x7d']

/-- What stands for a character inside quotes. -/
def quotedChar (c : Char) : List Char :=
  if c = '"' then ['\\', '"']
  else if c = '\\' then ['\\', '\\']
  else if c = '\n' then ['\\', 'n']
  else if c = '\r' then ['\\', 'r']
  else if c = '\t' then ['\\', 't']
  else if c.toNat = 0 then ['\\', '0']
  else if isInvisible c then codePoint c
  else [c]

/-- A text between quotes. -/
def quoted (text : String) : String :=
  String.ofList ('"' :: text.toList.flatMap quotedChar ++ ['"'])

end ComplexFormula
