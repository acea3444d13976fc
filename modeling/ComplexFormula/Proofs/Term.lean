/-
# Properties of terms

* `Term.AllLeaves` : what holds of all leaves of a term;
* `Term.leaves` : the leaves of a term;
* `Term.same_iff` : comparing two terms by a list of pairs decides their equality.
-/
import Mathlib.Tactic.Common
import ComplexFormula.Term

namespace ComplexFormula.Term

variable {α μ β : Type}

/-! ## Leaves -/

/-- All leaves of a term have a property. -/
def AllLeaves (P : α → Prop) : Term α μ β → Prop
  | leaf content => P content
  | unary _ operand => AllLeaves P operand
  | binary _ left right => AllLeaves P left ∧ AllLeaves P right

/-- What implies a property of the leaves. -/
theorem AllLeaves.imp {P Q : α → Prop} (hPQ : ∀ x, P x → Q x) {t : Term α μ β}
    (h : t.AllLeaves P) : t.AllLeaves Q := by
  induction t with
  | leaf content => exact hPQ content h
  | unary op operand ih => exact ih h
  | binary op left right ihl ihr => exact ⟨ihl h.1, ihr h.2⟩

/-- The leaves of a term, from left to right. -/
def leaves : Term α μ β → List α
  | leaf content => [content]
  | unary _ operand => leaves operand
  | binary _ left right => leaves left ++ leaves right

/-! ## Comparing -/

variable [DecidableEq α] [DecidableEq μ] [DecidableEq β]

/-- The terms of all pairs are compared. -/
theorem allSame_iff (pairs : List (Term α μ β × Term α μ β)) :
    allSame pairs = true ↔ ∀ p ∈ pairs, p.1 = p.2 := by
  fun_induction allSame pairs with
  | case1 => simp
  | case2 x rest ih => simp [ih]
  | case3 x y rest hxy => simp [hxy]
  | case4 op s t rest ih => simp [ih]
  | case5 op s op' t rest hop => simp [hop]
  | case6 s t op s' t' rest ih =>
    rw [ih]
    simp only [List.forall_mem_cons, binary.injEq, true_and]
    rw [← and_assoc, and_comm (a := t = t')]
  | case7 s t op s' t' op' rest hop => simp [hop]
  | case8 pairs hnil hleaf hunary hbinary =>
    refine iff_of_false (by simp) fun h => ?_
    match pairs with
    | [] => exact hnil rfl
    | (s, t) :: rest =>
      -- a pair of equal terms is of one kind, which one of the other cases compares
      obtain rfl : s = t := h _ List.mem_cons_self
      cases s with
      | leaf content => exact hleaf _ _ _ rfl
      | unary op operand => exact hunary _ _ _ _ _ rfl
      | binary op left right => exact hbinary _ _ _ _ _ _ _ rfl

/-- **Comparing decides equality.** -/
theorem same_iff (s t : Term α μ β) : s.same t = true ↔ s = t := by
  rw [same, allSame_iff]
  simp

end ComplexFormula.Term
