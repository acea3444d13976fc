/-
# Equality of trees

Syntax trees and drawings are compared by a list of pairs that are still to be compared, in an
order that does not follow the trees. The answer is right all the same, because it says that
the two sides of every pair are equal.

* `Drawing.same_iff` : comparing two drawings decides their equality;
* `Term.Swapped`, `Drawing.Swapped` : two operands, somewhere in a tree, change places;
* `same_iff_identical` : what follows for syntax trees and drawings.
-/
import Mathlib.Data.List.Forall2
import ComplexFormula.Proofs.Walks

namespace ComplexFormula

/-! ## Comparing drawings -/

namespace Drawing

/-- Two lists of one length are equal if the two sides of every pair are. -/
theorem eq_iff_forall_mem_zip {α : Type} {xs ys : List α} (hlength : xs.length = ys.length) :
    xs = ys ↔ ∀ p ∈ xs.zip ys, p.1 = p.2 := by
  rw [← List.forall₂_eq_eq_eq, List.forall₂_iff_zip, Prod.forall]
  exact and_iff_right hlength

/-- The drawings of all pairs are compared. -/
theorem allSame_iff (pairs : List (Drawing × Drawing)) :
    allSame pairs = true ↔ ∀ p ∈ pairs, p.1 = p.2 := by
  fun_induction allSame pairs with
  | case1 => simp
  | case2 label children label' children' rest h ih =>
    obtain ⟨rfl, hlength⟩ := h
    rw [ih, List.forall_mem_append, List.forall_mem_cons, node.injEq,
      eq_iff_forall_mem_zip hlength]
    simp only [List.mem_reverse, true_and]
  | case3 label children label' children' rest h =>
    -- nodes with different labels, or of different arity, are different
    refine iff_of_false Bool.false_ne_true fun hall => h ?_
    obtain ⟨rfl, rfl⟩ := node.inj (hall _ List.mem_cons_self)
    exact ⟨rfl, rfl⟩

/-- **Comparing decides equality.** -/
theorem same_iff (s t : Drawing) : s.same t = true ↔ s = t := by
  rw [same, allSame_iff, List.forall_mem_singleton]

/-- `Swapped d e s t`: where the children `d` and `e` of one node of `s` change places, `s`
becomes `t`. -/
inductive Swapped (d e : Drawing) : Drawing → Drawing → Prop where
  | here (label : String) (before between after : List Drawing) :
    Swapped d e (node label (before ++ d :: (between ++ e :: after)))
      (node label (before ++ e :: (between ++ d :: after)))
  | inside {s t : Drawing} (label : String) (before after : List Drawing)
      (h : Swapped d e s t) :
    Swapped d e (node label (before ++ s :: after)) (node label (before ++ t :: after))

/-- A drawing stays the same only if equal children change places. -/
theorem Swapped.eq_iff {d e s t : Drawing} (h : Swapped d e s t) : t = s ↔ d = e := by
  induction h with
  | here label before between after =>
    simp only [node.injEq, true_and, List.append_cancel_left_eq, List.cons.injEq]
    constructor
    · rintro ⟨hde, -⟩
      exact hde.symm
    · rintro rfl
      exact ⟨rfl, rfl, trivial⟩
  | inside label before after h ih =>
    simp only [node.injEq, true_and, List.append_cancel_left_eq, List.cons.injEq, and_true]
    exact ih

end Drawing

/-! ## Operands that change places -/

namespace Term

variable {α μ β : Type}

/-- `Swapped l r s t`: where the operands `l` and `r` of one node of `s` change places, `s`
becomes `t`. -/
inductive Swapped (l r : Term α μ β) : Term α μ β → Term α μ β → Prop where
  | here (op : β) : Swapped l r (binary op l r) (binary op r l)
  | operand {s t : Term α μ β} (op : μ) (h : Swapped l r s t) :
    Swapped l r (unary op s) (unary op t)
  | left {s t : Term α μ β} (op : β) (right : Term α μ β) (h : Swapped l r s t) :
    Swapped l r (binary op s right) (binary op t right)
  | right {s t : Term α μ β} (op : β) (left : Term α μ β) (h : Swapped l r s t) :
    Swapped l r (binary op left s) (binary op left t)

/-- A term stays the same only if equal operands change places. -/
theorem Swapped.eq_iff {l r s t : Term α μ β} (h : Swapped l r s t) : t = s ↔ l = r := by
  induction h with
  | here op =>
    rw [binary.injEq]
    constructor
    · rintro ⟨-, -, hlr⟩
      exact hlr
    · rintro rfl
      exact ⟨rfl, rfl, rfl⟩
  | operand op h ih => rw [unary.injEq, eq_self, true_and, ih]
  | left op right h ih => rw [binary.injEq, eq_self, true_and, eq_self, and_true, ih]
  | right op left h ih => rw [binary.injEq, eq_self, true_and, eq_self, true_and, ih]

end Term

/-! ## What comparing decides -/

/-- **Trees are the same exactly if they are identical**, syntax trees and drawings alike. So
both comparisons are equivalence relations, a tree is the same as its copy, and exchanging two
operands anywhere in a tree leaves it the same only if the operands are. -/
theorem same_iff_identical :
    (∀ s t : Tree, s.same t = true ↔ s = t) ∧
    (∀ d e : Drawing, d.same e = true ↔ d = e) ∧
    Equivalence (fun s t : Tree => s.same t = true) ∧
    Equivalence (fun d e : Drawing => d.same e = true) ∧
    (∀ t : Tree, t.same t.copy = true) ∧
    (∀ l r s t : Tree, Term.Swapped l r s t → (t.same s = true ↔ l.same r = true)) ∧
    ∀ d e s t : Drawing, Drawing.Swapped d e s t → (t.same s = true ↔ d.same e = true) := by
  refine ⟨Term.same_iff, Drawing.same_iff, ?_, ?_, ?_, ?_, ?_⟩
  · simp only [Term.same_iff]
    exact eq_equivalence
  · simp only [Drawing.same_iff]
    exact eq_equivalence
  · intro t
    rw [Tree.copy_eq_self, Term.same_iff]
  · intro l r s t h
    rw [Term.same_iff, Term.same_iff]
    exact h.eq_iff
  · intro d e s t h
    rw [Drawing.same_iff, Drawing.same_iff]
    exact h.eq_iff

/-- A difference inside a power changes with its operands. -/
theorem same_iff_identical_difference :
    let difference : Tree := .binary .sub (.leaf "a") (.leaf "b")
    let exchanged : Tree := .binary .sub (.leaf "b") (.leaf "a")
    let power (base : Tree) : Tree := .unary .root (.binary .pow base (.leaf "2"))
    (power exchanged).same (power difference) = false := by
  intro difference exchanged power
  have hswapped : Term.Swapped (.leaf "a") (.leaf "b") (power difference) (power exchanged) :=
    .operand UnaryOperator.root (.left BinaryOperator.pow (.leaf "2") (.here BinaryOperator.sub))
  rw [← Bool.not_eq_true, same_iff_identical.2.2.2.2.2.1 _ _ _ _ hswapped,
    same_iff_identical.1]
  decide

end ComplexFormula
