/-
# Balanced texts

A text is balanced if it closes exactly the parentheses that it opens, and none before it is
open. The closing parenthesis of a group is the first one after a balanced content:

* `Balanced.append`, `Balanced.enclose` : how balanced texts are put together;
* `balanced_congr` : only the parentheses of a text count;
* `closingIndex?_eq_some_iff` : what the search for a closing parenthesis finds.
-/
import Mathlib.Tactic.Common
import ComplexFormula.Formula.Reader.Parenthesis

namespace ComplexFormula

/-! ## Open parentheses -/

/-- How many more parentheses a text opens than it closes. -/
def openParens (s : List Char) : Int := s.count '(' - s.count ')'

/-- The empty text opens nothing. -/
theorem openParens_nil : openParens [] = 0 := rfl

/-- What two texts open adds up. -/
theorem openParens_append (s t : List Char) :
    openParens (s ++ t) = openParens s + openParens t := by
  unfold openParens
  rw [List.count_append, List.count_append]
  omega

/-- The first character of a text counts apart from the others. -/
theorem openParens_cons (c : Char) (s : List Char) :
    openParens (c :: s) = openParens [c] + openParens s := by
  rw [← List.singleton_append, openParens_append]

/-- A character that is no parenthesis opens nothing. -/
theorem openParens_singleton_of_ne {c : Char} (hopen : c ≠ '(') (hclose : c ≠ ')') :
    openParens [c] = 0 := by
  unfold openParens
  rw [List.count_cons_of_ne hopen, List.count_cons_of_ne hclose]
  rfl

/-- A text without parentheses opens nothing. -/
theorem openParens_of_not_mem {s : List Char} (hopen : '(' ∉ s) (hclose : ')' ∉ s) :
    openParens s = 0 := by
  unfold openParens
  rw [List.count_eq_zero_of_not_mem hopen, List.count_eq_zero_of_not_mem hclose]
  rfl

/-! ## Balanced texts -/

/-- Starting with `level` open parentheses, a text closes none that is not open. -/
def StaysOpen (level : Int) (s : List Char) : Prop :=
  ∀ p, p <+: s → 0 ≤ level + openParens p

/-- A text that closes exactly what it opens, and nothing before it is open. -/
structure Balanced (s : List Char) : Prop where
  settled : openParens s = 0
  staysOpen : StaysOpen 0 s

/-- The empty text closes nothing. -/
theorem staysOpen_nil {level : Int} : StaysOpen level [] ↔ 0 ≤ level := by
  constructor
  · intro h
    have := h [] List.prefix_rfl
    rw [openParens_nil] at this
    omega
  · intro h p hp
    rw [List.prefix_nil.1 hp, openParens_nil]
    omega

/-- Where a text stays open, the level is not below zero. -/
theorem StaysOpen.nonneg {level : Int} {s : List Char} (h : StaysOpen level s) : 0 ≤ level := by
  have := h [] List.nil_prefix
  rwa [openParens_nil, Int.add_zero] at this

/-- The first character of a text changes the level for the others. -/
theorem staysOpen_cons {level : Int} {c : Char} {s : List Char} :
    StaysOpen level (c :: s) ↔ 0 ≤ level ∧ StaysOpen (level + openParens [c]) s := by
  constructor
  · intro h
    refine ⟨h.nonneg, fun p hp => ?_⟩
    have := h (c :: p) ((List.prefix_cons_inj c).2 hp)
    rw [openParens_cons] at this
    omega
  · rintro ⟨hlevel, h⟩ p hp
    rcases List.prefix_cons_iff.1 hp with rfl | ⟨q, rfl, hq⟩
    · rw [openParens_nil]
      omega
    · have := h q hq
      rw [openParens_cons]
      omega

/-- A text in two parts: the second one starts at the level where the first one ends. -/
theorem staysOpen_append {level : Int} {s t : List Char} :
    StaysOpen level (s ++ t) ↔ StaysOpen level s ∧ StaysOpen (level + openParens s) t := by
  induction s generalizing level with
  | nil =>
    rw [List.nil_append, openParens_nil, staysOpen_nil, Int.add_zero]
    exact ⟨fun h => ⟨h.nonneg, h⟩, And.right⟩
  | cons c s ih =>
    rw [List.cons_append, staysOpen_cons, staysOpen_cons, ih, openParens_cons c s,
      Int.add_assoc, and_assoc]

/-- A higher level leaves more room. -/
theorem StaysOpen.mono {level level' : Int} {s : List Char} (h : StaysOpen level s)
    (hle : level ≤ level') : StaysOpen level' s := by
  intro p hp
  have := h p hp
  omega

/-- Whether a text stays open is seen in passing over it. -/
instance decidableStaysOpen : ∀ (level : Int) (s : List Char), Decidable (StaysOpen level s)
  | _, [] => decidable_of_iff _ staysOpen_nil.symm
  | level, c :: s =>
    haveI := decidableStaysOpen (level + openParens [c]) s
    decidable_of_iff _ staysOpen_cons.symm

/-- Whether a text is balanced can be decided. -/
instance (s : List Char) : Decidable (Balanced s) :=
  decidable_of_iff (openParens s = 0 ∧ StaysOpen 0 s)
    ⟨fun h => ⟨h.1, h.2⟩, fun h => ⟨h.settled, h.staysOpen⟩⟩

example : Balanced "(a)b(())".toList := by decide

example : ¬ Balanced "a)(b".toList := by decide

namespace Balanced

/-- A text without parentheses is balanced. -/
theorem of_not_mem {s : List Char} (hopen : '(' ∉ s) (hclose : ')' ∉ s) : Balanced s where
  settled := openParens_of_not_mem hopen hclose
  staysOpen p hp := by
    have hsub := hp.subset
    rw [openParens_of_not_mem (fun h => hopen (hsub h)) (fun h => hclose (hsub h))]
    omega

/-- Two balanced texts in a row are balanced. -/
theorem append {s t : List Char} (hs : Balanced s) (ht : Balanced t) : Balanced (s ++ t) where
  settled := by
    rw [openParens_append, hs.settled, ht.settled]
    rfl
  staysOpen := by
    -- the second text starts again at level zero
    rw [staysOpen_append, hs.settled]
    exact ⟨hs.staysOpen, ht.staysOpen⟩

/-- A character that is no parenthesis, before a balanced text. -/
theorem cons {c : Char} {s : List Char} (hopen : c ≠ '(') (hclose : c ≠ ')')
    (hs : Balanced s) : Balanced (c :: s) := by
  have hc : Balanced [c] :=
    of_not_mem (by simpa using Ne.symm hopen) (by simpa using Ne.symm hclose)
  exact hc.append hs

/-- A balanced text in parentheses is balanced. -/
theorem enclose {s : List Char} (hs : Balanced s) : Balanced ('(' :: s ++ [')']) where
  settled := by
    rw [List.cons_append, openParens_cons, openParens_append, hs.settled]
    rfl
  staysOpen := by
    rw [List.cons_append, staysOpen_cons, staysOpen_append, hs.settled]
    -- inside, one more parenthesis is open than the content needs
    refine ⟨by decide, hs.staysOpen.mono (by decide), ?_⟩
    rw [staysOpen_cons, staysOpen_nil]
    decide

/-- Behind a balanced front of a balanced text the rest is balanced. -/
theorem of_append_left {s t : List Char} (h : Balanced (s ++ t)) (hs : Balanced s) :
    Balanced t where
  settled := by
    have := h.settled
    rwa [openParens_append, hs.settled, Int.zero_add] at this
  staysOpen := by
    have := (staysOpen_append.1 h.staysOpen).2
    rwa [hs.settled] at this

/-- A balanced text before a closing parenthesis holds any other one that begins with it. -/
theorem exists_of_append_close {s t r rest : List Char} (hs : Balanced s) (ht : Balanced t)
    (h : s ++ r = t ++ ')' :: rest) : ∃ u, t = s ++ u ∧ r = u ++ ')' :: rest ∧ Balanced u := by
  rcases List.append_eq_append_iff.1 h with ⟨u, rfl, rfl⟩ | ⟨u, rfl, hu⟩
  · exact ⟨u, rfl, rfl, ht.of_append_left hs⟩
  · cases u with
    | nil =>
      rw [List.append_nil] at hs ⊢
      exact ⟨[], by simp, hu.symm, of_not_mem (by simp) (by simp)⟩
    | cons c u =>
      -- the first text would close a parenthesis that is not open
      obtain ⟨rfl, -⟩ := List.cons.inj hu
      have hstays := (staysOpen_append.1 hs.staysOpen).2
      rw [ht.settled, staysOpen_cons] at hstays
      exact absurd hstays.2.nonneg (by decide)

end Balanced

/-! ## The parentheses of a text -/

/-- Whether a character is a parenthesis. -/
def isParenthesis (c : Char) : Bool := c == '(' || c == ')'

/-- Any other character opens nothing. -/
theorem openParens_of_isParenthesis {c : Char} (h : ¬ isParenthesis c = true) :
    openParens [c] = 0 := by
  rw [isParenthesis, Bool.or_eq_true, beq_iff_eq, beq_iff_eq, not_or] at h
  exact openParens_singleton_of_ne h.1 h.2

/-- What a text opens is settled by its parentheses. -/
theorem openParens_filter (s : List Char) :
    openParens (s.filter isParenthesis) = openParens s := by
  induction s with
  | nil => rfl
  | cons c s ih =>
    by_cases hc : isParenthesis c = true
    · rw [List.filter_cons_of_pos hc, openParens_cons, ih, ← openParens_cons]
    · rw [List.filter_cons_of_neg hc, ih, openParens_cons c s, openParens_of_isParenthesis hc,
        Int.zero_add]

/-- Whether a text stays open is settled by its parentheses. -/
theorem staysOpen_filter {level : Int} {s : List Char} :
    StaysOpen level (s.filter isParenthesis) ↔ StaysOpen level s := by
  induction s generalizing level with
  | nil => rfl
  | cons c s ih =>
    by_cases hc : isParenthesis c = true
    · rw [List.filter_cons_of_pos hc, staysOpen_cons, staysOpen_cons, ih]
    · rw [List.filter_cons_of_neg hc, ih, staysOpen_cons, openParens_of_isParenthesis hc,
        Int.add_zero]
      exact ⟨fun h => ⟨h.nonneg, h⟩, And.right⟩

/-- **Texts with the same parentheses** are balanced together. -/
theorem balanced_congr {s t : List Char}
    (h : s.filter isParenthesis = t.filter isParenthesis) : Balanced s ↔ Balanced t := by
  have hfilter : ∀ u, Balanced u ↔ Balanced (u.filter isParenthesis) := fun u =>
    ⟨fun hu => ⟨(openParens_filter u).trans hu.settled, staysOpen_filter.2 hu.staysOpen⟩,
      fun hu => ⟨(openParens_filter u).symm.trans hu.settled, staysOpen_filter.1 hu.staysOpen⟩⟩
  rw [hfilter s, h, ← hfilter t]

/-! ## The closing parenthesis -/

/-- One step of the search, at a character that leaves the group open. -/
theorem closingIndexFrom?_cons {c : Char} {s : List Char} {level index : Nat}
    (h : 0 ≤ level + openParens [c]) :
    Reader.closingIndexFrom? level index (c :: s)
      = Reader.closingIndexFrom? (level + openParens [c]).toNat (index + 1) s := by
  by_cases hclose : c = ')'
  · -- the hypothesis says that this is not the end of the search
    subst hclose
    have hone : openParens [')'] = -1 := rfl
    rw [hone] at h ⊢
    obtain ⟨level, rfl⟩ : ∃ n, level = n + 1 := ⟨level - 1, by omega⟩
    rw [show ((level + 1 : Nat) + -1 : Int).toNat = level by omega]
    rfl
  · by_cases hopen : c = '('
    · subst hopen
      rfl
    · rw [openParens_singleton_of_ne hopen hclose, Int.add_zero, Int.toNat_natCast]
      simp only [Reader.closingIndexFrom?, hclose, hopen, ↓reduceIte]

/-- Only a closing parenthesis at level zero ends the search. -/
theorem eq_close_of_openParens_neg {c : Char} {level : Nat} (h : ¬ 0 ≤ level + openParens [c]) :
    c = ')' ∧ level = 0 := by
  by_cases hclose : c = ')'
  · subst hclose
    have hone : openParens [')'] = -1 := rfl
    exact ⟨rfl, by omega⟩
  · by_cases hopen : c = '('
    · subst hopen
      exact absurd (Int.natCast_nonneg (level + 1)) h
    · rw [openParens_singleton_of_ne hopen hclose] at h
      omega

/-- The search passes over a text that stays open, and goes on at its last level. -/
theorem closingIndexFrom?_append {s t : List Char} {level index : Nat}
    (h : StaysOpen level s) :
    Reader.closingIndexFrom? level index (s ++ t)
      = Reader.closingIndexFrom? (level + openParens s).toNat (index + s.length) t := by
  induction s generalizing level index with
  | nil => simp [openParens_nil]
  | cons c s ih =>
    obtain ⟨-, h⟩ := staysOpen_cons.1 h
    have hlevel : 0 ≤ level + openParens [c] := h.nonneg
    rw [← Int.toNat_of_nonneg hlevel] at h
    rw [List.cons_append, closingIndexFrom?_cons hlevel, ih h, Int.toNat_of_nonneg hlevel,
      openParens_cons c s, List.length_cons, Int.add_assoc, Nat.add_assoc, Nat.add_comm 1]

/-- What is found closes the open parentheses, after a text that stays open. -/
theorem exists_of_closingIndexFrom? {s : List Char} {level index k : Nat}
    (h : Reader.closingIndexFrom? level index s = some k) :
    ∃ content rest, s = content ++ ')' :: rest ∧ k = index + content.length ∧
      StaysOpen level content ∧ level + openParens content = 0 := by
  induction s generalizing level index with
  | nil => simp [Reader.closingIndexFrom?] at h
  | cons c s ih =>
    by_cases hlevel : 0 ≤ level + openParens [c]
    · rw [closingIndexFrom?_cons hlevel] at h
      obtain ⟨content, rest, rfl, rfl, hopen, hzero⟩ := ih h
      rw [Int.toNat_of_nonneg hlevel] at hopen hzero
      refine ⟨c :: content, rest, rfl, ?_, ?_, ?_⟩
      · rw [List.length_cons]
        omega
      · rw [staysOpen_cons]
        exact ⟨Int.natCast_nonneg level, hopen⟩
      · rw [openParens_cons]
        omega
    · obtain ⟨rfl, rfl⟩ := eq_close_of_openParens_neg hlevel
      simp only [Reader.closingIndexFrom?, ↓reduceIte, Option.some.injEq] at h
      exact ⟨[], s, rfl, h.symm, staysOpen_nil.2 (Int.le_refl 0), rfl⟩

/-- Where nothing is found, the text stays open. -/
theorem staysOpen_of_closingIndexFrom? {s : List Char} {level index : Nat}
    (h : Reader.closingIndexFrom? level index s = none) : StaysOpen level s := by
  induction s generalizing level index with
  | nil => exact staysOpen_nil.2 (Int.natCast_nonneg level)
  | cons c s ih =>
    by_cases hlevel : 0 ≤ level + openParens [c]
    · rw [closingIndexFrom?_cons hlevel] at h
      have hs := ih h
      rw [Int.toNat_of_nonneg hlevel] at hs
      exact staysOpen_cons.2 ⟨Int.natCast_nonneg level, hs⟩
    · obtain ⟨rfl, rfl⟩ := eq_close_of_openParens_neg hlevel
      simp [Reader.closingIndexFrom?] at h

/-- The closing parenthesis of a group stands after its balanced content. -/
theorem closingIndex?_eq_some_iff {s : List Char} {k : Nat} :
    Reader.closingIndex? s = some k ↔
      ∃ content rest, s = content ++ ')' :: rest ∧ Balanced content ∧ k = content.length := by
  constructor
  · intro h
    obtain ⟨content, rest, hs, hk, hopen, hzero⟩ := exists_of_closingIndexFrom? h
    exact ⟨content, rest, hs, ⟨by omega, hopen⟩, by omega⟩
  · rintro ⟨content, rest, rfl, hcontent, rfl⟩
    rw [Reader.closingIndex?, closingIndexFrom?_append hcontent.staysOpen, hcontent.settled]
    simp [Reader.closingIndexFrom?]

/-- Behind a content and its closing parenthesis. -/
theorem drop_content (content rest : List Char) :
    (content ++ ')' :: rest).drop (content.length + 1) = rest := by
  have hlength : content.length + 1 = (content ++ [')']).length := by
    rw [List.length_append, List.length_singleton]
  rw [hlength, show content ++ ')' :: rest = content ++ [')'] ++ rest by simp, List.drop_left]

/-- The content of a group is the only balanced text before a closing parenthesis. -/
theorem Balanced.eq_of_append_close {s t rest rest' : List Char} (hs : Balanced s)
    (ht : Balanced t) (h : s ++ ')' :: rest = t ++ ')' :: rest') : s = t := by
  -- the search finds one place, and each content ends there
  have hlength : s.length = t.length := by
    have hs' := closingIndex?_eq_some_iff.2 ⟨s, rest, rfl, hs, rfl⟩
    have ht' := closingIndex?_eq_some_iff.2 ⟨t, rest', h, ht, rfl⟩
    rw [hs'] at ht'
    exact Option.some.inj ht'
  exact (List.append_inj h hlength).1

/-- What a balanced text opens first, it closes again. -/
theorem Balanced.exists_of_open {s : List Char} (h : Balanced ('(' :: s)) :
    ∃ content rest, s = content ++ ')' :: rest ∧ Balanced content ∧ Balanced rest := by
  have hone : openParens ['('] = 1 := rfl
  cases hindex : Reader.closingIndex? s with
  | none =>
    -- the text would leave its first parenthesis open
    have hnonneg := staysOpen_of_closingIndexFrom? hindex s List.prefix_rfl
    have hsettled := h.settled
    rw [openParens_cons, hone] at hsettled
    omega
  | some k =>
    obtain ⟨content, rest, rfl, hcontent, -⟩ := closingIndex?_eq_some_iff.1 hindex
    have hwhole : Balanced ('(' :: content ++ [')'] ++ rest) := by simpa using h
    exact ⟨content, rest, rfl, hcontent, hwhole.of_append_left hcontent.enclose⟩

end ComplexFormula
