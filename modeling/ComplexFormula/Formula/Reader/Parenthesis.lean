/-
# Parentheses

* `Reader.closingIndex?` : where the parenthesis that closes a text stands;
* `Reader.close` : takes the closing parenthesis after a formula, or says what is wrong.
-/
import ComplexFormula.Formula.Reader.Basic

namespace ComplexFormula.Reader

/-! ## Matching parentheses -/

/-- How many characters of a text stand before the parenthesis that closes it, when `level`
more are open and `index` characters have been passed. -/
def closingIndexFrom? (level index : Nat) : List Char → Option Nat
  | [] => none
  | c :: rest =>
    if c = ')' then
      match level with
      | 0 => some index
      | level + 1 => closingIndexFrom? level (index + 1) rest
    else if c = '(' then closingIndexFrom? (level + 1) (index + 1) rest
    else closingIndexFrom? level (index + 1) rest

/-- How many characters after an opening parenthesis stand before the one that closes it. -/
def closingIndex? (inside : List Char) : Option Nat := closingIndexFrom? 0 0 inside

/-- The place of a closing parenthesis is inside the text. -/
theorem closingIndexFrom?_lt {s : List Char} :
    ∀ {level index k : Nat}, closingIndexFrom? level index s = some k →
      k < index + s.length := by
  induction s with
  | nil => intro level index k h; simp [closingIndexFrom?] at h
  | cons c s ih =>
    intro level index k h
    unfold closingIndexFrom? at h
    rw [List.length_cons]
    split at h
    · cases level with
      | zero => simp only [Option.some.injEq] at h; omega
      | succ level => have := ih h; omega
    · split at h
      · have := ih h
        omega
      · have := ih h
        omega

/-! ## The end of a group -/

/-- Takes the parenthesis that ends a formula, whose own parenthesis stands before
`inside`. -/
def close (page : Page) (inside : List Char) (f : Formula) : List Char → Reading
  | ')' :: rest => .ok (f, rest)
  | rest =>
    match closingIndex? inside with
    | none => .error ⟨[f], .unclosedParenthesis (page.position inside - 1)⟩
    | some index =>
      let text := rest.take (index - (inside.length - rest.length))
      .error ⟨[f], .unexpectedText (page.position rest) (String.ofList text)⟩

/-- A closed formula leaves less than it was left with. -/
theorem length_close_lt {page : Page} {inside s rest : List Char} {f g : Formula}
    (h : close page inside f s = .ok (g, rest)) : rest.length < s.length := by
  unfold close at h
  split at h
  · simp only [Except.ok.injEq, Prod.mk.injEq] at h
    rw [h.2, List.length_cons]
    omega
  · split at h <;> simp at h

end ComplexFormula.Reader
