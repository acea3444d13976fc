/-
# Reading formulas

The notation of formulas, loosest binding first.

    Sum     := Product (('+' | '-') Product)*
    Product := Power (('*' | '/' | implied product) Power)*
    Power   := Signed ('^' Signed)*
    Signed  := '-'? Primary
    Primary := '√' Signed
             | '(' (Literal | Sum) ')'
             | function '(' Sum ')'
             | name
             | numeral

* `Formula.read` : the formula that a whole text spells.
-/
import ComplexFormula.Formula.Reader.Primary

namespace ComplexFormula.Formula

/-- The reader of formulas in a dialect. -/
def reader (page : Page) : Reader :=
  .sum (.primary page page.dialect.nestingLimit)

/-- The formula that a text in normal form spells. -/
def read (dialect : Dialect) (s : List Char) : Except Fault Formula :=
  let page := Page.ofText dialect s
  match (reader page).read s with
  | .error fault => .error fault
  | .ok (f, []) => .ok f
  | .ok (f, rest) =>
    .error ⟨[f], .unexpectedText (page.position rest) (String.ofList rest)⟩

end ComplexFormula.Formula
