/-
# Positions in a text

A position in a text is a number, and what stands there need not exist. Operations on
positions are partial: they give nothing where a position is outside the text, where the ends
of a range are the wrong way round, and where a counter would fall below zero.

* `slice?` : the range between two positions;
* `place` : the position at which a rest of a text begins;
* `slice?_place` : between two rests stands what the first one has before the second.
-/
import Mathlib

namespace ComplexFormula.Positional

variable {α : Type}

/-! ## Ranges -/

/-- The range between two positions, which have to be in order and inside the text. -/
def slice? (text : List α) (start stop : Nat) : Option (List α) :=
  if start ≤ stop ∧ stop ≤ text.length then some ((text.drop start).take (stop - start))
  else none

/-- A range is what stands between its ends. -/
theorem slice?_append (p q r : List α) :
    slice? (p ++ q ++ r) p.length (p.length + q.length) = some q := by
  have hinside : p.length ≤ p.length + q.length ∧
      p.length + q.length ≤ (p ++ q ++ r).length := by
    simp only [List.length_append]
    omega
  rw [slice?, if_pos hinside, List.append_assoc, List.drop_left, Nat.add_sub_cancel_left,
    List.take_left]

/-- The ends of a range are in order and inside the text. -/
theorem le_of_slice? {text part : List α} {start stop : Nat}
    (h : slice? text start stop = some part) : start ≤ stop ∧ stop ≤ text.length := by
  by_contra hends
  rw [slice?, if_neg hends] at h
  simp at h

/-- A range with what follows it. -/
theorem slice?_trans {text part part' : List α} {start middle stop : Nat}
    (h : slice? text start middle = some part) (h' : slice? text middle stop = some part') :
    slice? text start stop = some (part ++ part') := by
  have hends := le_of_slice? h
  have hends' := le_of_slice? h'
  rw [slice?, if_pos hends] at h
  rw [slice?, if_pos hends'] at h'
  have hlength : stop - start = (middle - start) + (stop - middle) := by omega
  have hmiddle : start + (middle - start) = middle := by omega
  rw [slice?, if_pos ⟨hends.1.trans hends'.1, hends'.2⟩, hlength, List.take_add, List.drop_drop,
    hmiddle, Option.some.inj h, Option.some.inj h']

/-- A range of one position. -/
theorem slice?_of_getElem? {text : List α} {a : α} {position : Nat}
    (h : text[position]? = some a) : slice? text position (position + 1) = some [a] := by
  obtain ⟨hlt, rfl⟩ := List.getElem?_eq_some_iff.1 h
  rw [slice?, if_pos ⟨Nat.le_succ position, hlt⟩, Nat.add_sub_cancel_left,
    List.drop_eq_getElem_cons hlt]
  rfl

example : slice? ['a', 'b', 'c'] 1 2 = some ['b'] := by decide

example : slice? ['a', 'b', 'c'] 2 1 = none := by decide

/-! ## Rests of a text -/

/-- The position at which a rest of a text begins. -/
def place (text rest : List α) : Nat := text.length - rest.length

/-- Behind a front part begins the rest. -/
theorem place_append (p rest : List α) : place (p ++ rest) rest = p.length := by
  rw [place, List.length_append, Nat.add_sub_cancel]

/-- The whole text begins at its start. -/
theorem place_self (text : List α) : place text text = 0 := Nat.sub_self _

/-- The end of a text is behind its last position. -/
theorem place_nil (text : List α) : place text [] = text.length := rfl

variable {text rest : List α}

/-- What stands at the position of a rest is the first element of it. -/
theorem getElem?_place (h : rest <:+ text) : text[place text rest]? = rest.head? := by
  obtain ⟨p, rfl⟩ := h
  rw [place_append, List.getElem?_append_right (Nat.le_refl _), Nat.sub_self,
    List.head?_eq_getElem?]

/-- An element of a text stands before a rest of it. -/
theorem exists_place_of_getElem? {a : α} {position : Nat} (h : text[position]? = some a) :
    ∃ s, a :: s <:+ text ∧ place text (a :: s) = position := by
  obtain ⟨hlt, rfl⟩ := List.getElem?_eq_some_iff.1 h
  refine ⟨text.drop (position + 1), ?_, ?_⟩
  · rw [← List.drop_eq_getElem_cons hlt]
    exact List.drop_suffix position text
  · rw [place, ← List.drop_eq_getElem_cons hlt, List.length_drop]
    omega

/-- Every position that is not behind the end is that of a rest. -/
theorem exists_place_of_le {text : List α} {position : Nat} (h : position ≤ text.length) :
    ∃ s, s <:+ text ∧ place text s = position := by
  refine ⟨text.drop position, List.drop_suffix position text, ?_⟩
  rw [place, List.length_drop]
  omega

/-- The next position is that of the next rest. -/
theorem place_cons {a : α} (h : a :: rest <:+ text) :
    place text (a :: rest) + 1 = place text rest := by
  have := h.length_le
  rw [List.length_cons] at this
  rw [place, place, List.length_cons]
  omega

/-- The position before a rest is that of the element before it. -/
theorem ppred_place {a : α} (h : a :: rest <:+ text) :
    (place text rest).ppred = some (place text (a :: rest)) := by
  rw [← place_cons h]
  exact Nat.ppred_succ

/-- A rest that is not empty begins inside the text. -/
theorem place_lt {a : α} (h : a :: rest <:+ text) : place text (a :: rest) < text.length := by
  have := h.length_le
  rw [List.length_cons] at this
  rw [place, List.length_cons]
  omega

/-- A shorter rest begins further on. -/
theorem place_lt_place {s : List α} (h : s <:+ text) (hlt : rest.length < s.length) :
    place text s < place text rest := by
  have := h.length_le
  rw [place, place]
  omega

/-- A rest that begins further on is a rest of the one before. -/
theorem suffix_of_place_le {s : List α} (h : s <:+ text) (hrest : rest <:+ text)
    (hle : place text s ≤ place text rest) : rest <:+ s := by
  have hlength := h.length_le
  have hlength' := hrest.length_le
  rw [place, place] at hle
  exact List.suffix_of_suffix_length_le hrest h (by omega)

/-- Behind a part of a rest begins what is left of it. -/
theorem place_append_add {q : List α} (h : q ++ rest <:+ text) :
    place text (q ++ rest) + q.length = place text rest := by
  have := h.length_le
  rw [List.length_append] at this
  rw [place, place, List.length_append]
  omega

/-- Between two rests stands what the first one has before the second. -/
theorem slice?_place {q s : List α} (h : s <:+ text) (hs : q ++ rest = s) :
    slice? text (place text s) (place text rest) = some q := by
  obtain ⟨p, rfl⟩ := h
  subst hs
  have hrest : place (p ++ (q ++ rest)) rest = p.length + q.length := by
    rw [← List.append_assoc, place_append, List.length_append]
  rw [place_append, hrest, ← List.append_assoc]
  exact slice?_append p q rest

/-! ## Runs -/

/-- The end of the longest run of characters of a kind that begins at a position. -/
def runEnd (kind : Char → Bool) (text : List Char) (position : Nat) : Option Nat :=
  if position < text.length then do
    let c ← text[position]?
    if kind c then runEnd kind text (position + 1) else return position
  else some position
termination_by text.length - position

/-- A run ends where the characters of the kind end. -/
theorem runEnd_place (kind : Char → Bool) {text rest : List Char} (h : rest <:+ text) :
    runEnd kind text (place text rest) = some (place text (rest.dropWhile kind)) := by
  induction rest with
  | nil => rw [runEnd, place_nil, if_neg (Nat.lt_irrefl _), List.dropWhile_nil, place_nil]
  | cons c rest ih =>
    rw [runEnd, if_pos (place_lt h), getElem?_place h]
    cases hc : kind c with
    | true =>
      rw [List.dropWhile_cons_of_pos hc, ← ih ((List.suffix_cons c rest).trans h),
        ← place_cons h]
      simp [hc]
    | false =>
      rw [List.dropWhile_cons_of_neg (by simp [hc])]
      simp [hc]

end ComplexFormula.Positional
