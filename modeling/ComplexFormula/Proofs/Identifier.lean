/-
# The characters of names and operators

* `Identifier.isLetter_of_read_name` : names consist of letters;
* `Identifier.read_of_function` : a function before a parenthesis is called;
* `Identifier.read_of_lone` : a letter that no other one follows is a name;
* `BinaryOperator.isLetter_of_ofChar?` : operators are no letters.
-/
import Mathlib.Tactic.Common
import ComplexFormula.Lexeme

namespace ComplexFormula

/-! ## Functions and operators -/

/-- The names of functions consist of letters. -/
theorem RealFunction.isLetter_of_mem_name {function : RealFunction} :
    ∀ c ∈ function.name.toList, isLetter c = true := by
  cases function <;> exact List.all_eq_true.1 (by decide)

/-- The name of a function is not empty. -/
theorem RealFunction.name_ne_nil (function : RealFunction) : function.name.toList ≠ [] := by
  cases function <;> decide

/-- No function has a name of one letter. -/
theorem RealFunction.ofName?_singleton (c : Char) :
    RealFunction.ofName? (String.ofList [c]) = none := by
  rw [Option.eq_none_iff_forall_not_mem]
  intro f hf
  have hlength : f.name.toList.length = 1 := by
    rw [RealFunction.ofName?_eq_some hf, String.toList_ofList]
    rfl
  cases f <;> exact absurd hlength (by decide)

/-- The mark of an implied product is no letter. -/
theorem isLetter_invisibleTimes : isLetter invisibleTimes = false := by
  decide +kernel

/-- The sign of a root is no letter. -/
theorem isLetter_rootSign : isLetter rootSign = false := by
  decide +kernel

namespace BinaryOperator

/-- An operator is spelled by its symbol, and a product also by its mark. -/
theorem eq_of_ofChar? {c : Char} {op : BinaryOperator} (h : ofChar? c = some op) :
    c = invisibleTimes ∨ c = op.symbol := by
  unfold ofChar? at h
  split at h
  · next hc => exact Or.inl hc
  · have := List.find?_some h
    exact Or.inr (eq_of_beq this).symm

/-- An operator is no letter. -/
theorem isLetter_of_ofChar? {c : Char} {op : BinaryOperator} (h : ofChar? c = some op) :
    isLetter c = false := by
  rcases eq_of_ofChar? h with rfl | rfl
  · exact isLetter_invisibleTimes
  · cases op <;> decide

/-- An operator is no opening parenthesis. -/
theorem ne_open_of_ofChar? {c : Char} {op : BinaryOperator} (h : ofChar? c = some op) :
    c ≠ '(' := by
  rintro rfl
  exact absurd h (by cases op <;> decide)

/-- An operator is no closing parenthesis. -/
theorem ne_close_of_ofChar? {c : Char} {op : BinaryOperator} (h : ofChar? c = some op) :
    c ≠ ')' := by
  rintro rfl
  exact absurd h (by cases op <;> decide)

end BinaryOperator

/-! ## Identifiers -/

namespace Identifier

/-- A call is followed by its parenthesis. -/
theorem exists_of_read_call {dialect : Dialect} {s rest : List Char} {f : RealFunction}
    (h : read dialect s = (call f, rest)) : ∃ inside, rest = '(' :: inside := by
  unfold read at h
  simp only at h
  split at h
  · next g hcall =>
    simp only [Prod.mk.injEq, call.injEq] at h
    unfold call? at hcall
    split at hcall
    · next hopen =>
      simp only [Bool.and_eq_true, beq_iff_eq] at hopen
      rw [← h.2]
      exact List.head?_eq_some_iff.1 hopen.2
    · simp at hcall
  · split at h <;> simp at h

/-- A call is its function, the parenthesis and the text inside. -/
theorem append_of_read_call {dialect : Dialect} {s inside : List Char} {f : RealFunction}
    (h : read dialect s = (call f, '(' :: inside)) : f.name.toList ++ '(' :: inside = s := by
  rw [← chars_of_read_call h, List.append_assoc]
  rfl

/-- The parenthesis of a call stands further on in the text. -/
theorem suffix_of_read_call {dialect : Dialect} {s inside : List Char} {f : RealFunction}
    (h : read dialect s = (call f, '(' :: inside)) : '(' :: inside <:+ s :=
  ⟨f.name.toList, append_of_read_call h⟩

/-- A name that is read at a letter is not empty and consists of letters. -/
theorem isLetter_of_read_name {dialect : Dialect} {c : Char} {s rest letters : List Char}
    (hc : isLetter c = true) (h : read dialect (c :: s) = (name letters, rest)) :
    letters ≠ [] ∧ ∀ x ∈ letters, isLetter x = true := by
  unfold read at h
  simp only at h
  split at h
  · simp at h
  · split at h
    · simp only [Prod.mk.injEq, name.injEq] at h
      rw [← h.1]
      refine ⟨?_, fun x hx => List.all_eq_true.1 List.all_takeWhile x hx⟩
      rw [List.takeWhile_cons_of_pos hc]
      exact List.cons_ne_nil c _
    · simp only [Prod.mk.injEq, name.injEq] at h
      rw [← h.1]
      simpa using hc

/-- Only a dialect with functions has calls. -/
theorem functions_of_read_call {dialect : Dialect} {s rest : List Char} {f : RealFunction}
    (h : read dialect s = (call f, rest)) : dialect.functions = true := by
  unfold read at h
  simp only at h
  split at h
  · next hcall =>
    unfold call? at hcall
    split at hcall
    · next hopen => exact (Bool.and_eq_true_iff.1 hopen).1
    · simp at hcall
  · split at h <;> simp at h

/-- There the name of a function before a parenthesis is a call. -/
theorem read_of_function {dialect : Dialect} (hfunctions : dialect.functions = true)
    (f : RealFunction) (t : List Char) :
    read dialect (f.name.toList ++ '(' :: t) = (call f, '(' :: t) := by
  have hletters : ∀ c ∈ f.name.toList, isLetter c = true := RealFunction.isLetter_of_mem_name
  have hopen : ¬ isLetter '(' = true := by decide
  have htake : (f.name.toList ++ '(' :: t).takeWhile isLetter = f.name.toList := by
    rw [List.takeWhile_append_of_pos hletters, List.takeWhile_cons_of_neg hopen, List.append_nil]
  have hdrop : (f.name.toList ++ '(' :: t).dropWhile isLetter = '(' :: t := by
    rw [List.dropWhile_append_of_pos hletters, List.dropWhile_cons_of_neg hopen]
  have hcall : call? dialect f.name.toList ('(' :: t) = some f := by
    simp [call?, hfunctions, RealFunction.ofName?_name]
  simp only [read, htake, hdrop, hcall]

/-- Where a run of letters is no call, it is a name, or its first letter is. -/
theorem eq_of_read_name {dialect : Dialect} {s rest letters : List Char}
    (h : read dialect s = (name letters, rest)) :
    (letters, rest) = if dialect.longNames then (s.takeWhile isLetter, s.dropWhile isLetter)
      else (s.take 1, s.drop 1) := by
  unfold read at h
  simp only at h
  split at h
  · simp at h
  · split at h
    · next hlong =>
      obtain ⟨hname, hrest⟩ := Prod.mk.inj h
      rw [if_pos hlong, name.inj hname, hrest]
    · next hshort =>
      obtain ⟨hname, hrest⟩ := Prod.mk.inj h
      rw [if_neg hshort, name.inj hname, hrest]

/-- A letter that no other one follows is a name. -/
theorem read_of_lone {dialect : Dialect} {c : Char} {s : List Char}
    (hc : isLetter c = true) (hs : ∀ b ∈ s.head?, isLetter b = false) :
    read dialect (c :: s) = (name [c], s) := by
  have hrun : s.takeWhile isLetter = [] ∧ s.dropWhile isLetter = s := by
    cases s with
    | nil => exact ⟨rfl, rfl⟩
    | cons b s =>
      have hb : ¬ isLetter b = true := by
        rw [hs b rfl]
        exact Bool.false_ne_true
      exact ⟨List.takeWhile_cons_of_neg hb, List.dropWhile_cons_of_neg hb⟩
  have hcall : call? dialect [c] s = none := by
    unfold call?
    split
    · exact RealFunction.ofName?_singleton c
    · rfl
  simp only [read, List.takeWhile_cons_of_pos hc, List.dropWhile_cons_of_pos hc, hrun.1, hrun.2,
    hcall]
  split <;> rfl

end Identifier

end ComplexFormula
