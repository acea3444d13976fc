/-
# Walks over trees

The walks over a tree keep the nodes that are still to be met on a list, so that the depth of
the tree does not matter. Each of them computes what recursion on the structure would.

* `Tree.copy_eq_self` : a tree that is built anew is the tree;
* `Term.leafCount_eq` : how many leaves are counted;
* `Tree.walks_eq_recursion` : all walks together.
-/
import ComplexFormula.Proofs.PrefixNotation

namespace ComplexFormula

/-! ## Counting -/

namespace Term

variable {α μ β : Type}

/-- The number of leaves, by recursion on the structure. -/
def numLeaves : Term α μ β → Nat
  | leaf _ => 1
  | unary _ operand => numLeaves operand
  | binary _ left right => numLeaves left + numLeaves right

/-- The number of leaves of some terms. -/
def totalLeaves : List (Term α μ β) → Nat
  | [] => 0
  | t :: rest => numLeaves t + totalLeaves rest

/-- The leaves of the terms that are still to be visited are counted after the others. -/
theorem countLeaves_eq (count : Nat) (pending : List (Term α μ β)) :
    countLeaves count pending = count + totalLeaves pending := by
  fun_induction countLeaves count pending with
  | case1 count => rfl
  | case2 count content rest ih => rw [ih, totalLeaves, numLeaves, Nat.add_assoc]
  | case3 count op operand rest ih => rw [ih, totalLeaves, totalLeaves, numLeaves]
  | case4 count op left right rest ih =>
    rw [ih]
    simp only [totalLeaves, numLeaves]
    omega

/-- **The leaves are counted by recursion on the structure.** -/
theorem leafCount_eq (t : Term α μ β) : t.leafCount = t.numLeaves := by
  rw [leafCount, countLeaves_eq, totalLeaves, totalLeaves, Nat.zero_add, Nat.add_zero]

end Term

/-! ## Copies -/

namespace Tree

/-- **A tree that is built anew is the tree.** -/
theorem copy_eq_self (t : Tree) : t.copy = t := by
  rw [copy]
  induction t with
  | leaf content => exact Term.assemble_leaf rebuild content
  | unary op operand ih => rw [Term.assemble_unary, ih, rebuild]
  | binary op left right ihl ihr => rw [Term.assemble_binary, ihl, ihr, rebuild]

/-! ## All walks -/

/-- **The walks compute what recursion on the structure would.** Whatever a function makes of
a node and the values of its children, and in whatever monad, the two stacks come up with the
value of the whole and do not get stuck. So a copy is the tree, and a drawing has a node with
its label for every node of the tree. Leaves are counted, and prefix notation is written, by
recursion as well. -/
theorem walks_eq_recursion :
    (∀ (m : Type → Type) [Monad m] [LawfulMonad m] (α μ β γ : Type)
        (combine : Term α μ β → List γ → m γ) (t : Term α μ β),
      Term.assembleFrom combine [⟨t, false⟩] [] = some <$> t.foldNodes combine) ∧
    (∀ t : Tree, t.copy = t) ∧
    (∀ (bindings : Bindings) (t : Tree),
      t.drawing bindings = t.image (displayLabel bindings)) ∧
    (∀ t : Tree, t.leafCount = t.numLeaves) ∧
    ∀ t : Tree, t.prefixText = t.prefixForm := by
  refine ⟨?_, copy_eq_self, drawing_eq_image, Term.leafCount_eq, prefixText_eq_prefixForm⟩
  intro m _ _ α μ β γ combine t
  exact Term.assembleFrom_eq combine t

/-- A function that writes down the nodes it meets meets the children of a node before it,
left first. -/
theorem walks_eq_recursion_recorded :
    let note : Tree → List String → StateM (List String) String := fun node texts log =>
      (String.join texts ++ node.text, log ++ [node.text])
    let t : Tree := .binary .sub (.unary .root (.leaf "a")) (.binary .pow (.leaf "b") (.leaf "c"))
    (Term.assembleFrom note [⟨t, false⟩] []).run []
      = (some "a√bc^-", ["a", "√", "b", "c", "^", "-"]) := by
  intro note t
  rw [walks_eq_recursion.1 (StateM (List String)) _ _ _ _ note t]
  rfl

end Tree

end ComplexFormula
