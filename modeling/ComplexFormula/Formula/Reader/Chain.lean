/-
# Chains of operators

The levels of the notation above the primaries. Chains of operators are folded to the left.

* `Reader.chain` : operands joined by the operators of one level;
* `Reader.signed`, `Reader.power`, `Reader.product`, `Reader.sum` : the levels, from the
  tightest to the loosest, over a given reader of primaries.
-/
import ComplexFormula.Formula.Reader.Basic

namespace ComplexFormula.Reader

/-! ## Chains of operators -/

/-- Continues a chain after its left part, as long as an operator of the chain follows. -/
def chainFrom (operator? : Char → Option BinaryOperator) (operand : Reader) (left : Formula)
    (s : List Char) : Reading :=
  match s with
  | [] => .ok (left, [])
  | c :: rest =>
    match operator? c with
    | none => .ok (left, c :: rest)
    | some op =>
      match _hread : operand.read rest with
      | .error fault => .error (fault.after left)
      | .ok (right, rest') => chainFrom operator? operand (.binary op left right) rest'
termination_by s.length
decreasing_by
  have := operand.shorter _hread
  simp only [List.length_cons]
  omega

/-- A chain gives nothing back. -/
theorem length_chainFrom_le {operator? : Char → Option BinaryOperator} {operand : Reader}
    {left f : Formula} {s rest : List Char}
    (h : chainFrom operator? operand left s = .ok (f, rest)) : rest.length ≤ s.length := by
  fun_induction chainFrom operator? operand left s with
  | case1 left => simp_all
  | case2 left c tail hop => simp_all
  | case3 => simp at h
  | case4 left c tail op hop right rest' hread ih =>
    have := operand.shorter hread
    have := ih h
    simp only [List.length_cons]
    omega

/-- Operands joined by the operators of one level, folded to the left. -/
def chain (operator? : Char → Option BinaryOperator) (operand : Reader) : Reader where
  read s :=
    match operand.read s with
    | .error fault => .error fault
    | .ok (first, rest) => chainFrom operator? operand first rest
  shorter {s f rest} h := by
    split at h
    · simp at h
    · next first rest' hread =>
      have := operand.shorter hread
      have := length_chainFrom_le h
      omega

/-- The operator of a kind that a character spells. -/
def operatorOf (kind : BinaryOperator → Bool) (c : Char) : Option BinaryOperator :=
  (BinaryOperator.ofChar? c).filter kind

/-! ## The levels of the notation -/

/-- A primary, or a sign and a primary. -/
def signed (primary : Reader) : Reader where
  read
    | '-' :: rest =>
      match primary.read rest with
      | .error fault => .error fault
      | .ok (f, rest') => .ok (.unary .negation f, rest')
    | s => primary.read s
  shorter {s f rest} h := by
    split at h
    · next tail =>
      split at h
      · simp at h
      · next f' rest' hread =>
        have := primary.shorter hread
        simp only [Except.ok.injEq, Prod.mk.injEq] at h
        rw [← h.2, List.length_cons]
        omega
    · exact primary.shorter h

/-- A chain of powers. -/
def power (primary : Reader) : Reader :=
  chain (operatorOf fun op => op == .pow) (signed primary)

/-- A chain of products and quotients. -/
def product (primary : Reader) : Reader :=
  chain (operatorOf BinaryOperator.isMultiplicative) (power primary)

/-- A chain of sums and differences: a whole formula. -/
def sum (primary : Reader) : Reader :=
  chain (operatorOf BinaryOperator.isAdditive) (product primary)

end ComplexFormula.Reader
