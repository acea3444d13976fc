/-
# Terms

Trees whose inner nodes have one or two operands. A chain of operators nests one level per
operator, so the walks over a term keep the pending work on a list of their own.

* `Term.fold` : the value of a term, by recursion on its structure;
* `Term.walk` : the same value, computed with a list of pending frames (`walk_eq_fold`);
* `Term.leafCount` : the number of leaves, counted with a list of terms to visit;
* `Term.same` : equality, decided by a list of pairs that are still to be compared.
-/

namespace ComplexFormula

/-- A term over leaves `α`, operations `μ` on one operand and operations `β` on two. -/
inductive Term (α μ β : Type) where
  | leaf (content : α)
  | unary (op : μ) (operand : Term α μ β)
  | binary (op : β) (left right : Term α μ β)
  deriving DecidableEq

namespace Term

variable {α μ β γ : Type}

/-- The number of nodes. -/
def size : Term α μ β → Nat
  | leaf _ => 1
  | unary _ operand => operand.size + 1
  | binary _ left right => left.size + right.size + 1

/-- Every term has a node. -/
theorem size_pos (t : Term α μ β) : 0 < t.size := by
  cases t <;> simp [size]

/-- The children of the root, left first. -/
def children : Term α μ β → List (Term α μ β)
  | leaf _ => []
  | unary _ operand => [operand]
  | binary _ left right => [left, right]

/-! ## Folds -/

/-- What to make of the three kinds of node. -/
structure Algebra (α μ β γ : Type) where
  leaf : α → γ
  unary : μ → γ → γ
  binary : β → γ → γ → γ

/-- The value of a term, bottom up. -/
def fold (m : Algebra α μ β γ) : Term α μ β → γ
  | leaf content => m.leaf content
  | unary op operand => m.unary op (fold m operand)
  | binary op left right => m.binary op (fold m left) (fold m right)

/-! ## Folds with a list of frames -/

/-- A node whose value waits for the value of an operand. -/
inductive Frame (α μ β γ : Type) where
  /-- The only operand is being evaluated. -/
  | operand (op : μ)
  /-- The left operand is being evaluated, and the right one is still to come. -/
  | left (op : β) (right : Term α μ β)
  /-- The right operand is being evaluated. -/
  | right (op : β) (left : γ)

/-- Where a walk stands: at a subterm on the way down, or at a value on the way up. -/
inductive Focus (α μ β γ : Type) where
  | down (t : Term α μ β)
  | up (value : γ)

/-- How much work a frame still holds. -/
def Frame.weight : Frame α μ β γ → Nat
  | operand _ => 1
  | left _ next => 3 * next.size + 2
  | right _ _ => 1

/-- How much work a focus still holds. -/
def Focus.weight : Focus α μ β γ → Nat
  | down t => 3 * t.size
  | up _ => 0

/-- How much work some frames still hold. -/
def Frame.totalWeight : List (Frame α μ β γ) → Nat
  | [] => 0
  | frame :: rest => frame.weight + totalWeight rest

/-- The value of a focus inside the frames around it, innermost first. -/
def walkFrom (m : Algebra α μ β γ) (focus : Focus α μ β γ) (frames : List (Frame α μ β γ)) :
    γ :=
  match focus, frames with
  | .down (.leaf content), frames => walkFrom m (.up (m.leaf content)) frames
  | .down (.unary op operand), frames => walkFrom m (.down operand) (.operand op :: frames)
  | .down (.binary op left right), frames => walkFrom m (.down left) (.left op right :: frames)
  | .up value, [] => value
  | .up value, .operand op :: frames => walkFrom m (.up (m.unary op value)) frames
  | .up value, .left op right :: frames => walkFrom m (.down right) (.right op value :: frames)
  | .up value, .right op left :: frames => walkFrom m (.up (m.binary op left value)) frames
termination_by focus.weight + Frame.totalWeight frames
decreasing_by
  all_goals
    simp only [Focus.weight, Frame.totalWeight, Frame.weight, size]
    omega

/-- The value of a term, without recursion on its depth. -/
def walk (m : Algebra α μ β γ) (t : Term α μ β) : γ :=
  walkFrom m (.down t) []

/-- A walk down a term comes up with its fold. -/
theorem walkFrom_down (m : Algebra α μ β γ) (t : Term α μ β) (frames : List (Frame α μ β γ)) :
    walkFrom m (.down t) frames = walkFrom m (.up (t.fold m)) frames := by
  induction t generalizing frames with
  | leaf content => rw [walkFrom, fold]
  | unary op operand ih => rw [walkFrom, ih, walkFrom, fold]
  | binary op left right ihl ihr => rw [walkFrom, ihl, walkFrom, ihr, walkFrom, fold]

/-- A walk computes the fold. -/
theorem walk_eq_fold (m : Algebra α μ β γ) (t : Term α μ β) : t.walk m = t.fold m := by
  rw [walk, walkFrom_down, walkFrom]

/-! ## Counting with a list of terms -/

/-- The number of nodes of some terms. -/
def totalSize : List (Term α μ β) → Nat
  | [] => 0
  | t :: rest => t.size + totalSize rest

/-- The number of leaves that are found so far and in the terms that are still to be visited. -/
def countLeaves (count : Nat) (pending : List (Term α μ β)) : Nat :=
  match pending with
  | [] => count
  | leaf _ :: rest => countLeaves (count + 1) rest
  | unary _ operand :: rest => countLeaves count (operand :: rest)
  | binary _ left right :: rest => countLeaves count (right :: left :: rest)
termination_by totalSize pending
decreasing_by
  all_goals
    simp only [totalSize, size]
    omega

/-- The number of leaves, without recursion on the depth. -/
def leafCount (t : Term α μ β) : Nat := countLeaves 0 [t]

/-! ## Equality with a list of pairs -/

/-- How much comparing is left to do. -/
def pairsWeight : List (Term α μ β × Term α μ β) → Nat
  | [] => 0
  | (s, _) :: rest => s.size + pairsWeight rest

/-- Whether the two terms of every pair are equal. -/
def allSame [DecidableEq α] [DecidableEq μ] [DecidableEq β]
    (pairs : List (Term α μ β × Term α μ β)) : Bool :=
  match pairs with
  | [] => true
  | (.leaf x, .leaf y) :: rest => if x = y then allSame rest else false
  | (.unary op s, .unary op' t) :: rest =>
    if op = op' then allSame ((s, t) :: rest) else false
  | (.binary op s t, .binary op' s' t') :: rest =>
    if op = op' then allSame ((t, t') :: (s, s') :: rest) else false
  | _ => false
termination_by pairsWeight pairs
decreasing_by
  all_goals
    simp only [pairsWeight, size]
    omega

/-- Whether two terms are equal, without recursion on their depth. -/
def same [DecidableEq α] [DecidableEq μ] [DecidableEq β] (s t : Term α μ β) : Bool :=
  allSame [(s, t)]

end Term

end ComplexFormula
