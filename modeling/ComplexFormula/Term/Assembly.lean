/-
# Values assembled at the nodes of a term

A node gets its value from a function of the node and the values of its children, left first.
The function may have effects, which follow the order of the nodes: children before their
parent, from left to right.

* `Term.foldNodes` : the value of a term, by recursion on its structure;
* `Term.assembleFrom` : the same with a stack of nodes and a stack of values, which gets stuck
  if a node finds too few values;
* `assembleFrom_eq` : it never gets stuck, and computes the value by recursion;
* `Term.assemble` : the value, for a function without effects, and its equations.
-/
import ComplexFormula.Term

namespace ComplexFormula.Term

variable {α μ β γ : Type} {m : Type → Type} [Monad m]

/-- The value of a term: that of its root, after the values of the children, left first. -/
def foldNodes (combine : Term α μ β → List γ → m γ) : Term α μ β → m γ
  | leaf content => combine (leaf content) []
  | unary op operand => do
    let value ← foldNodes combine operand
    combine (unary op operand) [value]
  | binary op left right => do
    let first ← foldNodes combine left
    let second ← foldNodes combine right
    combine (binary op left right) [first, second]

/-! ## Two stacks -/

/-- A node on the stack. It is met twice: first its children are put on the stack in front of
it, and then, expanded, it takes their values. -/
structure Pending (α μ β : Type) where
  node : Term α μ β
  expanded : Bool

/-- The children of a node as they are put on the stack. -/
def pendingChildren (t : Term α μ β) : List (Pending α μ β) :=
  t.children.map fun child => ⟨child, false⟩

/-- How often a node and what is below it will be met. -/
def Pending.weight : Pending α μ β → Nat
  | ⟨node, false⟩ => 2 * node.size
  | ⟨_, true⟩ => 1

/-- How often some nodes and what is below them will be met. -/
def Pending.totalWeight : List (Pending α μ β) → Nat
  | [] => 0
  | item :: rest => item.weight + totalWeight rest

/-- A node is met at least once. -/
theorem Pending.weight_pos (item : Pending α μ β) : 0 < item.weight := by
  obtain ⟨node, expanded⟩ := item
  have := node.size_pos
  cases expanded <;> simp only [weight] <;> omega

/-- The children are met as often as the node, without its own two times. -/
theorem totalWeight_pendingChildren (t : Term α μ β) (rest : List (Pending α μ β)) :
    Pending.totalWeight (t.pendingChildren ++ rest) + 2
      = 2 * t.size + Pending.totalWeight rest := by
  cases t <;>
    simp only [pendingChildren, children, List.map_cons, List.map_nil, List.cons_append,
      List.nil_append, Pending.totalWeight, Pending.weight, size] <;> omega

/-- The value of the lowest node of the stack, with the values that are waiting for their
parents, last first. There is none if a node has more children than values are waiting, or if
no value is left for the whole. -/
def assembleFrom (combine : Term α μ β → List γ → m γ) (pending : List (Pending α μ β))
    (values : List γ) : m (Option γ) :=
  match pending with
  | [] => pure values.head?
  | ⟨node, expanded⟩ :: rest =>
    let count := node.children.length
    if expanded || node.children.isEmpty then
      if count ≤ values.length then do
        let value ← combine node (values.take count).reverse
        assembleFrom combine rest (value :: values.drop count)
      else pure none
    else assembleFrom combine (node.pendingChildren ++ ⟨node, true⟩ :: rest) values
termination_by Pending.totalWeight pending
decreasing_by
  · have := Pending.weight_pos ⟨node, expanded⟩
    simp only [Pending.totalWeight]
    omega
  · next h =>
    obtain rfl : expanded = false := by
      cases expanded
      · rfl
      · simp at h
    have := totalWeight_pendingChildren node (⟨node, true⟩ :: rest)
    simp only [Pending.totalWeight, Pending.weight] at this ⊢
    omega

variable [LawfulMonad m]

/-- **A node leaves its value behind, and the stacks below it as they were.** -/
theorem assembleFrom_cons (combine : Term α μ β → List γ → m γ) (t : Term α μ β)
    (rest : List (Pending α μ β)) (values : List γ) :
    assembleFrom combine (⟨t, false⟩ :: rest) values
      = t.foldNodes combine >>= fun value => assembleFrom combine rest (value :: values) := by
  induction t generalizing rest values with
  | leaf content => simp [assembleFrom, foldNodes, children]
  | unary op operand ih =>
    -- the node is met again when the value of its operand is on top
    have hexpanded (value : γ) :
        assembleFrom combine (⟨unary op operand, true⟩ :: rest) (value :: values)
          = combine (unary op operand) [value] >>= fun value' =>
              assembleFrom combine rest (value' :: values) := by
      simp [assembleFrom, children]
    rw [assembleFrom]
    simp [pendingChildren, children, foldNodes, ih, hexpanded]
  | binary op left right ihl ihr =>
    have hexpanded (first second : γ) :
        assembleFrom combine (⟨binary op left right, true⟩ :: rest) (second :: first :: values)
          = combine (binary op left right) [first, second] >>= fun value =>
              assembleFrom combine rest (value :: values) := by
      simp [assembleFrom, children]
    rw [assembleFrom]
    simp [pendingChildren, children, foldNodes, ihl, ihr, hexpanded]

/-- **The stacks compute the value by recursion**: no node finds too few values, and a value
is left at the end. -/
theorem assembleFrom_eq (combine : Term α μ β → List γ → m γ) (t : Term α μ β) :
    assembleFrom combine [⟨t, false⟩] [] = some <$> t.foldNodes combine := by
  rw [assembleFrom_cons, map_eq_pure_bind]
  simp [assembleFrom]

/-! ## Functions without effects -/

/-- The value of a term for a function without effects, with two stacks. -/
def assemble (combine : Term α μ β → List γ → γ) (t : Term α μ β) : γ :=
  (Id.run (assembleFrom (fun node values => pure (combine node values)) [⟨t, false⟩] [])).get
    (by rw [assembleFrom_eq]; rfl)

/-- The value for a function without effects is that by recursion. -/
theorem assemble_eq (combine : Term α μ β → List γ → γ) (t : Term α μ β) :
    t.assemble combine = Id.run (t.foldNodes fun node values => pure (combine node values)) := by
  have h := assembleFrom_eq (m := Id) (fun node values => pure (combine node values)) t
  unfold assemble
  simp only [h]
  rfl

/-- The value of a leaf. -/
theorem assemble_leaf (combine : Term α μ β → List γ → γ) (content : α) :
    (leaf content).assemble combine = combine (leaf content) [] := by
  rw [assemble_eq]
  rfl

/-- The value of an operation on one operand. -/
theorem assemble_unary (combine : Term α μ β → List γ → γ) (op : μ) (operand : Term α μ β) :
    (unary op operand).assemble combine
      = combine (unary op operand) [operand.assemble combine] := by
  rw [assemble_eq, assemble_eq]
  rfl

/-- The value of an operation on two operands. -/
theorem assemble_binary (combine : Term α μ β → List γ → γ) (op : β)
    (left right : Term α μ β) :
    (binary op left right).assemble combine
      = combine (binary op left right) [left.assemble combine, right.assemble combine] := by
  rw [assemble_eq, assemble_eq, assemble_eq]
  rfl

end ComplexFormula.Term
