/-
# The normal form of a formula

Blanks are dropped, and a product that two neighbours imply is marked between them.

* `normalize` : the normal form of a text;
* `variableNames` : the variables of a text, in order of first appearance.
-/
import ComplexFormula.Bindings
import ComplexFormula.Lexeme
import ComplexFormula.Text.Blank

namespace ComplexFormula

/-! ## Implied products -/

/-- Whether a product is implied between two neighbouring characters: an operand has ended
and another one begins. -/
def impliesProduct (previous next : Char) : Bool :=
  if next = '(' then previous.isDigit || isLetter previous || previous == ')'
  else if next.isDigit then isLetter previous || previous == ')'
  else if isLetter next then previous.isDigit || previous == ')' || isLetter previous
  else false

/-- The mark between two neighbouring lexemes, if the dialect has implied products and the
neighbours imply one. -/
def markBetween (dialect : Dialect) (x y : Lexeme) : List Char :=
  match x.chars.getLast?, y.chars.head? with
  | some previous, some next =>
    if dialect.impliedProducts && impliesProduct previous next then [invisibleTimes] else []
  | _, _ => []

/-- The text of some lexemes, with the implied products marked. -/
def spell (dialect : Dialect) : List Lexeme → List Char
  | [] => []
  | [x] => x.chars
  | x :: y :: rest => x.chars ++ markBetween dialect x y ++ spell dialect (y :: rest)

/-! ## The normal form -/

/-- The characters of the normal form. -/
def normalChars (dialect : Dialect) (s : List Char) : List Char :=
  spell dialect (lexemes dialect (withoutBlanks s))

/-- The normal form of a text. -/
def normalize (dialect : Dialect) (text : String) : String :=
  String.ofList (normalChars dialect text.toList)

/-- The variables of a text, without the reserved names, in order of first appearance. -/
def variableNames (dialect : Dialect) (text : String) : List String :=
  let names := (lexemes dialect (normalChars dialect text.toList)).filterMap Lexeme.named?
  (names.filter fun name => !isReserved name).eraseDups

end ComplexFormula
