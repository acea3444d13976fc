/-
# Drawings

Labelled trees of any arity, and their picture in lines of text:

    +
    ├── 2.0000
    └── *
        ├── 3.0000
        └── 4.0000

* `Drawing.render` : the picture of a tree, one line per node;
* `Drawing.debugText` : the root alone, in one line;
* `Drawing.same` : equality, decided by a list of pairs that are still to be compared.
-/
import ComplexFormula.Text.Quoted

namespace ComplexFormula

/-- A tree of labels. -/
inductive Drawing where
  | node (label : String) (children : List Drawing)

namespace Drawing

/-- The label of the root. -/
def label : Drawing → String
  | node label _ => label

/-- The subtrees below the root. -/
def children : Drawing → List Drawing
  | node _ children => children

mutual

/-- The number of nodes of a tree. -/
def size : Drawing → Nat
  | node _ children => sizeAll children + 1

/-- The number of nodes of some trees. -/
def sizeAll : List Drawing → Nat
  | [] => 0
  | tree :: rest => tree.size + sizeAll rest

end

/-! ## Pictures -/

/-- The lines in front of the label of a child: the branch that leads to it. -/
def branch (isLast : Bool) : String :=
  if isLast then "└── " else "├── "

/-- What continues the branch in the lines below a child. -/
def indent (isLast : Bool) : String :=
  if isLast then "    " else "│   "

/-- A subtree whose lines are still to be written: its margin, and whether it is the last
of its siblings. -/
structure Pending where
  tree : Drawing
  margin : String
  isLast : Bool

/-- The children of a node as pending work. -/
def pendingChildren (margin : String) : List Drawing → List Pending
  | [] => []
  | tree :: rest => ⟨tree, margin, rest.isEmpty⟩ :: pendingChildren margin rest

/-- How many lines are still to be written. -/
def pendingSize : List Pending → Nat
  | [] => 0
  | item :: rest => item.tree.size + pendingSize rest

/-- The children hold as many lines as the node without its own. -/
theorem pendingSize_append_children (margin : String) (trees : List Drawing)
    (rest : List Pending) :
    pendingSize (pendingChildren margin trees ++ rest) = sizeAll trees + pendingSize rest := by
  induction trees with
  | nil => simp [pendingChildren, sizeAll]
  | cons tree trees ih =>
    simp only [pendingSize, pendingChildren, sizeAll, List.cons_append, ih]
    omega

/-- Adds the lines of the pending subtrees to a text, in order. -/
def renderOnto (text : String) (pending : List Pending) : String :=
  match pending with
  | [] => text
  | ⟨node label children, margin, isLast⟩ :: rest =>
    renderOnto (text ++ margin ++ branch isLast ++ label ++ "\n")
      (pendingChildren (margin ++ indent isLast) children ++ rest)
termination_by pendingSize pending
decreasing_by
  rw [pendingSize_append_children]
  simp only [pendingSize, size]
  omega

/-- The picture of a tree: the label of the root, and below it the pictures of its children,
each behind its branch. -/
def render : Drawing → String
  | node label children => renderOnto (label ++ "\n") (pendingChildren "" children)

/-- The label of the root between quotes, and how many subtrees there are. -/
def debugText : Drawing → String
  | node label children =>
    "DisplayNode \x7b label: " ++ quoted label ++ ", children: " ++ toString children.length ++
      " \x7d"

/-! ## Equality -/

/-- How much comparing is left to do. -/
def pairsSize : List (Drawing × Drawing) → Nat
  | [] => 0
  | (s, _) :: rest => s.size + pairsSize rest

/-- The comparing that some pairs and others hold. -/
theorem pairsSize_append (pairs rest : List (Drawing × Drawing)) :
    pairsSize (pairs ++ rest) = pairsSize pairs + pairsSize rest := by
  induction pairs with
  | nil => simp [pairsSize]
  | cons pair pairs ih =>
    simp only [List.cons_append, pairsSize, ih]
    omega

/-- The order of the pairs does not matter. -/
theorem pairsSize_reverse (pairs : List (Drawing × Drawing)) :
    pairsSize pairs.reverse = pairsSize pairs := by
  induction pairs with
  | nil => rfl
  | cons pair pairs ih =>
    simp only [List.reverse_cons, pairsSize_append, pairsSize, ih]
    omega

/-- The pairs of children hold at most as many nodes as the children on the left. -/
theorem pairsSize_zip_le (xs ys : List Drawing) : pairsSize (xs.zip ys) ≤ sizeAll xs := by
  induction xs generalizing ys with
  | nil => simp [pairsSize]
  | cons x xs ih =>
    cases ys with
    | nil => simp [pairsSize]
    | cons y ys =>
      have := ih ys
      simp only [List.zip_cons_cons, pairsSize, sizeAll]
      omega

/-- Whether the two trees of every pair are equal. Of the children of two nodes the last ones
are compared first. -/
def allSame (pairs : List (Drawing × Drawing)) : Bool :=
  match pairs with
  | [] => true
  | (node label children, node label' children') :: rest =>
    if label = label' ∧ children.length = children'.length then
      allSame ((children.zip children').reverse ++ rest)
    else false
termination_by pairsSize pairs
decreasing_by
  have := pairsSize_zip_le children children'
  rw [pairsSize_append, pairsSize_reverse]
  simp only [pairsSize, size]
  omega

/-- Whether two trees are equal. -/
def same (s t : Drawing) : Bool := allSame [(s, t)]

end Drawing

end ComplexFormula
