/-
# Readers

A reader takes a formula off the front of a text. Where it fails it keeps the formulas that
were complete before the fault, because a fault of their values comes first.

* `Fault` : where and why reading broke off;
* `Reader` : a reading function that never succeeds without taking a character;
* `Page` : the text that is being read, for positions in it.
-/
import ComplexFormula.Dialect
import ComplexFormula.Formula.Basic

namespace ComplexFormula

/-! ## Faults -/

/-- Where reading broke off: the formulas that were complete by then, in reading order, and
the reason. -/
structure Fault where
  completed : List Formula
  reason : SyntaxError
  deriving DecidableEq

namespace Fault

/-- A fault before any formula was complete. -/
def ofReason (reason : SyntaxError) : Fault := ⟨[], reason⟩

/-- A fault after a formula was complete. -/
def after (f : Formula) (fault : Fault) : Fault :=
  { fault with completed := f :: fault.completed }

end Fault

/-! ## Readers -/

/-- The formula at the front of a text and the text after it, or the fault. -/
abbrev Reading := Except Fault (Formula × List Char)

/-- A way to read a formula off the front of a text, which takes at least one character. -/
structure Reader where
  read : List Char → Reading
  shorter : ∀ {s f rest}, read s = .ok (f, rest) → rest.length < s.length

/-! ## Positions -/

/-- The text that is being read: its dialect and its length. -/
structure Page where
  dialect : Dialect
  length : Nat

namespace Page

/-- The position at which a rest of the text begins. -/
def position (page : Page) (rest : List Char) : Nat := page.length - rest.length

/-- The page of a text. -/
def ofText (dialect : Dialect) (s : List Char) : Page := ⟨dialect, s.length⟩

end Page

end ComplexFormula
