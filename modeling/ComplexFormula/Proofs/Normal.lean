/-
# The characters of normal forms

* `spell_congr` : the marks depend only on whether products are implied;
* `mem_normalChars` : a normal form has the characters of the text and marks of products;
* `isBlank_of_mem_normalChars`, `withoutBlanks_normalChars` : it has no blanks;
* `filter_normalChars` : it has the characters of a kind that the text has, unless the kind has
  blanks or marks of products.
-/
import Mathlib.Tactic.Common
import ComplexFormula.Normal
import ComplexFormula.Proofs.Letter

namespace ComplexFormula

/-- The marks depend on the dialect only by whether products are implied. -/
theorem spell_congr {dialect dialect' : Dialect}
    (h : dialect'.impliedProducts = dialect.impliedProducts) (xs : List Lexeme) :
    spell dialect' xs = spell dialect xs := by
  have hbetween : ∀ x y, markBetween dialect' x y = markBetween dialect x y := by
    intro x y
    simp only [markBetween, h]
  fun_induction spell dialect xs with
  | case1 => rfl
  | case2 => rfl
  | case3 x y rest ih => rw [spell, hbetween, ih]

/-- Between two lexemes there is at most a mark of a product. -/
theorem eq_invisibleTimes_of_mem_markBetween {dialect : Dialect} {x y : Lexeme} {c : Char}
    (h : c ∈ markBetween dialect x y) : c = invisibleTimes := by
  unfold markBetween at h
  split at h
  · split at h
    · exact List.mem_singleton.1 h
    · exact absurd h List.not_mem_nil
  · exact absurd h List.not_mem_nil

/-- Spelled lexemes have their characters and marks of products. -/
theorem mem_spell {dialect : Dialect} {xs : List Lexeme} {c : Char}
    (h : c ∈ spell dialect xs) : c = invisibleTimes ∨ c ∈ xs.flatMap Lexeme.chars := by
  fun_induction spell dialect xs with
  | case1 => exact absurd h List.not_mem_nil
  | case2 x => exact Or.inr (by simpa using h)
  | case3 x y rest ih =>
    rw [List.flatMap_cons]
    rcases List.mem_append.1 h with h | h
    · rcases List.mem_append.1 h with h | h
      · exact Or.inr (List.mem_append_left _ h)
      · exact Or.inl (eq_invisibleTimes_of_mem_markBetween h)
    · exact (ih h).imp_right (List.mem_append_right _)

/-- A normal form has the characters of the text and marks of products. -/
theorem mem_normalChars {dialect : Dialect} {s : List Char} {c : Char}
    (h : c ∈ normalChars dialect s) : c = invisibleTimes ∨ c ∈ withoutBlanks s := by
  have hspell := mem_spell h
  rwa [flatMap_chars_lexemes] at hspell

/-- **A normal form has no blanks.** -/
theorem isBlank_of_mem_normalChars {dialect : Dialect} {s : List Char} {c : Char}
    (h : c ∈ normalChars dialect s) : isBlank c = false := by
  rcases mem_normalChars h with rfl | hc
  · decide
  · have hkept := (List.mem_filter.1 hc).2
    rwa [Bool.not_eq_true'] at hkept

/-- So nothing is dropped from it. -/
theorem withoutBlanks_normalChars (dialect : Dialect) (s : List Char) :
    withoutBlanks (normalChars dialect s) = normalChars dialect s :=
  withoutBlanks_of_forall fun _ hc => isBlank_of_mem_normalChars hc

/-! ## Characters of a kind -/

section

variable {p : Char → Bool}

/-- Spelled lexemes have the characters of a kind that they have, if marks of products are not
of the kind. -/
theorem filter_spell (hmark : p invisibleTimes = false) (dialect : Dialect)
    (xs : List Lexeme) : (spell dialect xs).filter p = (xs.flatMap Lexeme.chars).filter p := by
  fun_induction spell dialect xs with
  | case1 => rfl
  | case2 x => simp
  | case3 x y rest ih =>
    have hbetween : (markBetween dialect x y).filter p = [] := by
      rw [List.filter_eq_nil_iff]
      intro c hc
      rw [eq_invisibleTimes_of_mem_markBetween hc, hmark]
      exact Bool.false_ne_true
    rw [List.flatMap_cons, List.filter_append, List.filter_append, List.filter_append, ih,
      hbetween, List.append_nil]

/-- **A normal form has the characters of a kind that the text has**, if blanks and marks of
products are not of the kind. -/
theorem filter_normalChars (hmark : p invisibleTimes = false)
    (hblank : ∀ c, isBlank c = true → p c = false) (dialect : Dialect) (s : List Char) :
    (normalChars dialect s).filter p = s.filter p := by
  rw [normalChars, filter_spell hmark, flatMap_chars_lexemes, withoutBlanks, List.filter_filter]
  refine List.filter_congr fun c _ => ?_
  cases hc : isBlank c with
  | false => simp
  | true => simp [hblank c hc]

/-- It has as many of them as the text. -/
theorem countP_normalChars (hmark : p invisibleTimes = false)
    (hblank : ∀ c, isBlank c = true → p c = false) (dialect : Dialect) (s : List Char) :
    (normalChars dialect s).countP p = s.countP p := by
  rw [List.countP_eq_length_filter, filter_normalChars hmark hblank,
    ← List.countP_eq_length_filter]

end

end ComplexFormula
