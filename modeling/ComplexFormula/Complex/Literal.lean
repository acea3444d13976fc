/-
# Complex literals

The spellings `3`, `2i`, `3+2i`, `3-i`, `-i` of complex numbers, with blanks anywhere.

* `Complex.ofLiteral` : reads a literal from a text;
* `Complex.ofBareLiteral` : reads a literal from characters without blanks.
-/
import ComplexFormula.Complex.Basic
import ComplexFormula.Decimal.Numeral
import ComplexFormula.Text.Blank

namespace ComplexFormula

/-! ## Why a text is no literal -/

/-- The reasons why a text is no complex literal. -/
inductive LiteralError where
  /-- Nothing is left without the blanks. -/
  | empty
  /-- A real or imaginary part is no numeral. -/
  | badComponent (text : String)
  /-- There is an imaginary unit, but no sign where the imaginary part could begin. -/
  | noSplit (text : String)
  deriving DecidableEq

/-- The sentence that states a reason. -/
def LiteralError.message : LiteralError → String
  | empty => "empty complex literal"
  | badComponent text => "invalid numeric component `" ++ text ++ "`"
  | noSplit text => "no real/imaginary split point in `" ++ text ++ "`"

namespace Complex

/-! ## The two parts -/

/-- The letters that stand for the imaginary unit. -/
def isUnitLetter (c : Char) : Bool := c == 'i' || c == 'I'

/-- The letters that introduce a power of ten. -/
def isExponentMark (c : Char) : Bool := c == 'e' || c == 'E'

/-- Cuts a text before its first sign that does not follow an exponent mark; `previous` is
the character before the text. -/
def splitAfter? (previous : Char) : List Char → Option (List Char × List Char)
  | [] => none
  | c :: rest =>
    if (c == '+' || c == '-') && !isExponentMark previous then some ([], c :: rest)
    else (splitAfter? c rest).map fun (front, back) => (c :: front, back)

/-- Cuts a literal into its real and its imaginary part. A sign in front belongs to the
real part, and a sign after an exponent mark to its numeral. -/
def splitParts? : List Char → Option (List Char × List Char)
  | [] => none
  | c :: rest => (splitAfter? c rest).map fun (front, back) => (c :: front, back)

/-- Reads an optionally signed decimal. The characters are checked first, so that no word is
taken for a float. -/
def readDecimal? (s : List Char) : Option Float :=
  if !s.all Numeral.isDecimalChar || !s.any Char.isDigit then none else floatOfText? s

/-- Reads a real part. -/
def readReal (s : List Char) : Except LiteralError Float :=
  match readDecimal? s with
  | some x => .ok x
  | none => .error (.badComponent (String.ofList s))

/-- Reads an imaginary part, which ends in the imaginary unit. Without a numeral its
magnitude is one. -/
def readImaginary (s : List Char) : Except LiteralError Float :=
  match s.dropLast with
  | [] => .ok 1
  | ['+'] => .ok 1
  | ['-'] => .ok (-1)
  | coefficient =>
    match readDecimal? coefficient with
    | some x => .ok x
    | none => .error (.badComponent (String.ofList s))

/-! ## The whole literal -/

/-- Whether the last character is an imaginary unit. -/
def endsInUnit (s : List Char) : Bool :=
  (s.getLast?.map isUnitLetter).getD false

/-- Reads a literal without blanks. -/
def ofBareLiteral (s : List Char) : Except LiteralError Complex :=
  if s.isEmpty then .error .empty
  else if !s.any isUnitLetter then do
    let re ← readReal s
    return ⟨re, 0⟩
  else if !endsInUnit s then .error (.noSplit (String.ofList s))
  else
    match splitParts? s with
    | none => do
      let im ← readImaginary s
      return ⟨0, im⟩
    | some (real, imaginary) =>
      if real.any isUnitLetter then .error (.noSplit (String.ofList s))
      else do
        let re ← readReal real
        let im ← readImaginary imaginary
        return ⟨re, im⟩

/-- Reads a complex literal. -/
def ofLiteral (text : String) : Except LiteralError Complex :=
  ofBareLiteral (withoutBlanks text.toList)

end Complex

end ComplexFormula
