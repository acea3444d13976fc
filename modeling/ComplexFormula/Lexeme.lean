/-
# Lexemes

A text without blanks is cut into names, openings of function calls, and single characters.

* `Identifier.read` : what the run of letters in front of a text stands for;
* `lexemes` : the whole text, cut;
* `flatMap_chars_lexemes` : the lexemes joined are the text.
-/
import ComplexFormula.Dialect
import ComplexFormula.Operator
import ComplexFormula.Text.Letter

namespace ComplexFormula

/-! ## Identifiers -/

/-- What a run of letters stands for. -/
inductive Identifier where
  /-- The name of a function whose argument follows in parentheses. -/
  | call (function : RealFunction)
  /-- The name of a variable. -/
  | name (letters : List Char)
  deriving DecidableEq

namespace Identifier

/-- The function that is called by a run of letters with `rest` after it. -/
def call? (dialect : Dialect) (word rest : List Char) : Option RealFunction :=
  if dialect.functions && rest.head? == some '(' then
    RealFunction.ofName? (String.ofList word)
  else none

/-- Reads the identifier in front of a text, and the text after it. The longest run of
letters is a call if it names a function and a parenthesis follows; otherwise the run, or
its first letter alone, is a variable. -/
def read (dialect : Dialect) (s : List Char) : Identifier × List Char :=
  let word := s.takeWhile isLetter
  let rest := s.dropWhile isLetter
  match call? dialect word rest with
  | some f => (call f, rest)
  | none => if dialect.longNames then (name word, rest) else (name (s.take 1), s.drop 1)

/-- A call is the name of its function before a parenthesis. -/
theorem chars_of_read_call {dialect : Dialect} {s rest : List Char} {f : RealFunction}
    (h : read dialect s = (call f, rest)) : f.name.toList ++ ['('] ++ rest.tail = s := by
  unfold read at h
  simp only at h
  split at h
  · next g hcall =>
    simp only [Prod.mk.injEq, call.injEq] at h
    obtain ⟨rfl, rfl⟩ := h
    unfold call? at hcall
    split at hcall
    · next hopen =>
      have hword := RealFunction.ofName?_eq_some hcall
      simp only [Bool.and_eq_true, beq_iff_eq] at hopen
      obtain ⟨tail, htail⟩ := List.head?_eq_some_iff.1 hopen.2
      rw [hword, String.toList_ofList, htail, List.tail_cons, List.append_assoc,
        List.singleton_append, ← htail, List.takeWhile_append_dropWhile]
    · simp at hcall
  · split at h <;> simp at h

/-- A name and the text after it are the text. -/
theorem append_of_read_name {dialect : Dialect} {s rest letters : List Char}
    (h : read dialect s = (name letters, rest)) : letters ++ rest = s := by
  unfold read at h
  simp only at h
  split at h
  · simp at h
  · split at h
    · simp only [Prod.mk.injEq, name.injEq] at h
      rw [← h.1, ← h.2, List.takeWhile_append_dropWhile]
    · simp only [Prod.mk.injEq, name.injEq] at h
      rw [← h.1, ← h.2, List.take_append_drop]

/-- Reading at a letter takes at least that letter. -/
theorem length_read_lt (dialect : Dialect) {c : Char} (hc : isLetter c = true)
    (s : List Char) : (read dialect (c :: s)).2.length < (c :: s).length := by
  have hrun : ((c :: s).dropWhile isLetter).length < (c :: s).length := by
    rw [List.dropWhile_cons_of_pos hc]
    exact Nat.lt_succ_of_le (List.dropWhile_sublist _).length_le
  unfold read
  simp only
  split
  · exact hrun
  · split
    · exact hrun
    · simp

end Identifier

/-! ## Lexemes -/

/-- The pieces of a text. -/
inductive Lexeme where
  /-- The name of a function and the parenthesis that opens its argument. -/
  | call (function : RealFunction)
  /-- The name of a variable. -/
  | name (letters : List Char)
  /-- Any other character. -/
  | symbol (c : Char)
  deriving DecidableEq

namespace Lexeme

/-- The characters of a lexeme. -/
def chars : Lexeme → List Char
  | call f => f.name.toList ++ ['(']
  | name letters => letters
  | symbol c => [c]

/-- The variable that a lexeme names. -/
def named? : Lexeme → Option String
  | name letters => some (String.ofList letters)
  | _ => none

end Lexeme

/-! ## Cutting a text -/

/-- Cuts a text without blanks into its lexemes. -/
def lexemes (dialect : Dialect) (s : List Char) : List Lexeme :=
  match s with
  | [] => []
  | c :: rest =>
    if _hc : isLetter c = true then
      match _hread : Identifier.read dialect (c :: rest) with
      | (.call f, after) => .call f :: lexemes dialect after.tail
      | (.name letters, after) => .name letters :: lexemes dialect after
    else .symbol c :: lexemes dialect rest
termination_by s.length
decreasing_by
  · have := Identifier.length_read_lt dialect _hc rest
    rw [_hread] at this
    simp only [List.length_tail, List.length_cons] at this ⊢
    omega
  · have := Identifier.length_read_lt dialect _hc rest
    rw [_hread] at this
    exact this
  · simp

/-- The empty text has no lexemes. -/
theorem lexemes_nil (dialect : Dialect) : lexemes dialect [] = [] := by
  rw [lexemes]

/-- A character that is no letter is a lexeme of its own. -/
theorem lexemes_of_symbol (dialect : Dialect) {c : Char} (hc : isLetter c = false)
    (s : List Char) : lexemes dialect (c :: s) = .symbol c :: lexemes dialect s := by
  rw [lexemes]
  simp [hc]

/-- A call takes the parenthesis after the name of its function. -/
theorem lexemes_of_call (dialect : Dialect) {c : Char} (hc : isLetter c = true)
    {s rest : List Char} {f : RealFunction}
    (h : Identifier.read dialect (c :: s) = (.call f, rest)) :
    lexemes dialect (c :: s) = .call f :: lexemes dialect rest.tail := by
  rw [lexemes]
  simp only [hc, ↓reduceDIte]
  split <;> simp_all

/-- A name takes its letters. -/
theorem lexemes_of_name (dialect : Dialect) {c : Char} (hc : isLetter c = true)
    {s rest letters : List Char}
    (h : Identifier.read dialect (c :: s) = (.name letters, rest)) :
    lexemes dialect (c :: s) = .name letters :: lexemes dialect rest := by
  rw [lexemes]
  simp only [hc, ↓reduceDIte]
  split <;> simp_all

/-- Cutting loses nothing. -/
theorem flatMap_chars_lexemes (dialect : Dialect) (s : List Char) :
    (lexemes dialect s).flatMap Lexeme.chars = s := by
  fun_induction lexemes dialect s with
  | case1 => rfl
  | case2 c rest hc f after hread ih =>
    rw [List.flatMap_cons, ih]
    exact Identifier.chars_of_read_call hread
  | case3 c rest hc letters after hread ih =>
    rw [List.flatMap_cons, ih]
    exact Identifier.append_of_read_name hread
  | case4 c rest hc ih =>
    rw [List.flatMap_cons, ih]
    rfl

end ComplexFormula
