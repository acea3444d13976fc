/-
# The value of a formula

A formula has its value bottom up: that of a leaf is settled by the text of the leaf alone,
and that of any other node by the values of its operands.

* `Formula.HasValue` : which value a formula has;
* `Formula.evaluate_eq_ok_iff` : evaluation computes it, where the texts of the leaves read
  back;
* `Formula.tree_leaf`, `Formula.tree_negation`, `Formula.tree_operation`,
  `Formula.tree_binary` : how a formula is shown, bottom up as well;
* `Formula.exists_hasValue_iff` : a formula has a value if its names are bound and its
  operations are defined.
-/
import ComplexFormula.Formula.Basic
import ComplexFormula.Proofs.Literal
import ComplexFormula.Proofs.Term

namespace ComplexFormula

/-! ## Leaves -/

/-- The value of a leaf by its text: a text of letters is looked up, and any other one is
read as a literal. -/
def leafValue? (bindings : Bindings) (content : String) : Option Complex :=
  if content.toList.all isLetter then bindings.resolve? content
  else (Complex.ofLiteral content).toOption

/-- The text of a constant reads back as its value, and names consist of letters. -/
def Operand.ReadsBack : Operand → Prop
  | constant text value => ∀ bindings, leafValue? bindings text = some value
  | name text => text.toList.all isLetter = true

/-- An operand whose text reads back has the value of its text. -/
theorem Operand.evaluate_eq_ok_iff {operand : Operand} (h : operand.ReadsBack)
    {bindings : Bindings} {z : Complex} :
    operand.evaluate bindings = .ok z ↔ leafValue? bindings operand.text = some z := by
  cases operand with
  | constant text value =>
    rw [Operand.text, h bindings, Operand.evaluate, Option.some.injEq, Except.ok.injEq]
  | name text =>
    have hletters : text.toList.all isLetter = true := h
    rw [Operand.text, leafValue?, if_pos hletters, Operand.evaluate]
    split
    · next value hvalue => rw [hvalue, Option.some.injEq, Except.ok.injEq]
    · next hvalue => simp [hvalue]

/-! ## Steps that may fail -/

/-- What is computed in two steps succeeds if both steps do. -/
theorem bind_eq_ok_iff {ε α β : Type} {x : Except ε α} {f : α → Except ε β} {y : β} :
    x.bind f = .ok y ↔ ∃ a, x = .ok a ∧ f a = .ok y := by
  cases x with
  | error e => simp [Except.bind]
  | ok a => simp [Except.bind]

/-- What is computed in two steps fails where one of them does. -/
theorem bind_eq_error_iff {ε α β : Type} {x : Except ε α} {f : α → Except ε β} {e : ε} :
    x.bind f = .error e ↔ x = .error e ∨ ∃ a, x = .ok a ∧ f a = .error e := by
  cases x with
  | error e' => simp [Except.bind]
  | ok a => simp [Except.bind]

/-- What is made of a success comes from a success. -/
theorem map_eq_ok_iff {ε α β : Type} {x : Except ε α} {g : α → β} {y : β} :
    x.map g = .ok y ↔ ∃ a, x = .ok a ∧ g a = y := by
  cases x with
  | error e => simp [Except.map]
  | ok a => simp [Except.map]

/-- What is made of a success leaves the failures. -/
theorem map_eq_error_iff {ε α β : Type} {x : Except ε α} {g : α → β} {e : ε} :
    x.map g = .error e ↔ x = .error e := by
  cases x with
  | error e' => simp [Except.map]
  | ok a => simp [Except.map]

/-- Renaming the reasons of failures keeps the successes. -/
theorem mapError_eq_ok_iff {ε ε' α : Type} {x : Except ε α} {g : ε → ε'} {y : α} :
    x.mapError g = .ok y ↔ x = .ok y := by
  cases x with
  | error e => simp [Except.mapError]
  | ok a => simp [Except.mapError]

/-- Renaming the reasons of failures makes up no failure. -/
theorem mapError_eq_error_iff {ε ε' α : Type} {x : Except ε α} {g : ε → ε'} {e : ε'} :
    x.mapError g = .error e ↔ ∃ e', x = .error e' ∧ g e' = e := by
  cases x with
  | error e' => simp [Except.mapError]
  | ok a => simp [Except.mapError]

/-! ## Values -/

namespace Formula

/-- The values of formulas, bottom up. A sign multiplies both parts by minus one. -/
inductive HasValue (bindings : Bindings) : Formula → Complex → Prop
  | leaf {operand : Operand} {z : Complex} (h : leafValue? bindings operand.text = some z) :
      HasValue bindings (.leaf operand) z
  | negation {f : Formula} {z : Complex} (h : HasValue bindings f z) :
      HasValue bindings (.unary .negation f) (z.scale (-1))
  | operation {op : UnaryOperator} {f : Formula} {z w : Complex} (h : HasValue bindings f z)
      (happly : op.apply z = .ok w) : HasValue bindings (.unary (.operation op) f) w
  | binary {op : BinaryOperator} {f g : Formula} {z w v : Complex}
      (hleft : HasValue bindings f z) (hright : HasValue bindings g w)
      (happly : op.apply z w = .ok v) : HasValue bindings (.binary op f g) v

variable {bindings : Bindings}

/-- The value of a leaf. -/
theorem hasValue_leaf_iff {operand : Operand} {z : Complex} :
    HasValue bindings (.leaf operand) z ↔ leafValue? bindings operand.text = some z := by
  constructor
  · rintro ⟨h⟩
    exact h
  · exact HasValue.leaf

/-- The value of a node with one operand. -/
theorem hasValue_unary_iff {op : Modifier} {f : Formula} {w : Complex} :
    HasValue bindings (.unary op f) w ↔
      ∃ z, HasValue bindings f z ∧ op.apply z = .ok w := by
  constructor
  · intro h
    cases h with
    | negation h => exact ⟨_, h, rfl⟩
    | operation h happly => exact ⟨_, h, mapError_eq_ok_iff.2 happly⟩
  · rintro ⟨z, hz, happly⟩
    cases op with
    | negation =>
      obtain rfl := Except.ok.inj happly
      exact HasValue.negation hz
    | operation op => exact HasValue.operation hz (mapError_eq_ok_iff.1 happly)

/-- The value of a node with two operands. -/
theorem hasValue_binary_iff {op : BinaryOperator} {f g : Formula} {v : Complex} :
    HasValue bindings (.binary op f g) v ↔
      ∃ z w, HasValue bindings f z ∧ HasValue bindings g w ∧ op.apply z w = .ok v := by
  constructor
  · rintro ⟨⟩
    exact ⟨_, _, ‹_›, ‹_›, ‹_›⟩
  · rintro ⟨z, w, hz, hw, happly⟩
    exact HasValue.binary hz hw happly

/-- A formula has at most one value. -/
theorem HasValue.unique {f : Formula} {z w : Complex} (hz : HasValue bindings f z)
    (hw : HasValue bindings f w) : z = w := by
  induction f generalizing z w with
  | leaf operand =>
    rw [hasValue_leaf_iff] at hz hw
    rw [hz] at hw
    exact Option.some.inj hw
  | unary op f ih =>
    obtain ⟨x, hx, happly⟩ := hasValue_unary_iff.1 hz
    obtain ⟨y, hy, happly'⟩ := hasValue_unary_iff.1 hw
    rw [ih hx hy, happly'] at happly
    exact (Except.ok.inj happly).symm
  | binary op f g ihl ihr =>
    obtain ⟨x, y, hx, hy, happly⟩ := hasValue_binary_iff.1 hz
    obtain ⟨x', y', hx', hy', happly'⟩ := hasValue_binary_iff.1 hw
    rw [ihl hx hx', ihr hy hy', happly'] at happly
    exact (Except.ok.inj happly).symm

/-! ## Evaluation -/

/-- Evaluating an operand. -/
theorem evaluate_leaf (operand : Operand) :
    evaluate bindings (.leaf operand) = operand.evaluate bindings := by
  rw [evaluate, Term.walk_eq_fold]
  rfl

/-- Evaluating a node with one operand. -/
theorem evaluate_unary (op : Modifier) (f : Formula) :
    evaluate bindings (.unary op f) = (evaluate bindings f).bind op.apply := by
  rw [evaluate, evaluate, Term.walk_eq_fold, Term.walk_eq_fold]
  rfl

/-- Evaluating a node with two operands. -/
theorem evaluate_binary (op : BinaryOperator) (f g : Formula) :
    evaluate bindings (.binary op f g)
      = (evaluate bindings f).bind fun z => (evaluate bindings g).bind fun w =>
          (op.apply z w).mapError .undefined := by
  rw [evaluate, evaluate, evaluate, Term.walk_eq_fold, Term.walk_eq_fold, Term.walk_eq_fold]
  rfl

/-- **Evaluation computes the value of a formula**, where the leaves read back. -/
theorem evaluate_eq_ok_iff {f : Formula} (hf : f.AllLeaves Operand.ReadsBack) {z : Complex} :
    f.evaluate bindings = .ok z ↔ HasValue bindings f z := by
  induction f generalizing z with
  | leaf operand =>
    rw [evaluate_leaf, Operand.evaluate_eq_ok_iff hf, hasValue_leaf_iff]
  | unary op f ih =>
    rw [evaluate_unary, bind_eq_ok_iff, hasValue_unary_iff]
    exact exists_congr fun w => and_congr (ih hf) Iff.rfl
  | binary op f g ihl ihr =>
    rw [evaluate_binary, bind_eq_ok_iff, hasValue_binary_iff]
    refine exists_congr fun w => ?_
    rw [ihl hf.1, bind_eq_ok_iff]
    constructor
    · rintro ⟨hw, v, hv, happly⟩
      exact ⟨v, hw, (ihr hf.2).1 hv, mapError_eq_ok_iff.1 happly⟩
    · rintro ⟨v, hw, hv, happly⟩
      exact ⟨hw, v, (ihr hf.2).2 hv, mapError_eq_ok_iff.2 happly⟩

/-! ## Syntax trees -/

/-- An operand is shown by its text. -/
@[simp]
theorem tree_leaf (operand : Operand) : tree (.leaf operand) = .leaf operand.text := by
  rw [tree, Term.walk_eq_fold]
  rfl

/-- A sign is shown as a difference from `0`. -/
@[simp]
theorem tree_negation (f : Formula) :
    tree (.unary .negation f) = .binary .sub (.leaf "0") f.tree := by
  rw [tree, tree, Term.walk_eq_fold, Term.walk_eq_fold]
  rfl

/-- An operation on one operand is shown above it. -/
@[simp]
theorem tree_operation (op : UnaryOperator) (f : Formula) :
    tree (.unary (.operation op) f) = .unary op f.tree := by
  rw [tree, tree, Term.walk_eq_fold, Term.walk_eq_fold]
  rfl

/-- An operator is shown above its operands, in their order. -/
@[simp]
theorem tree_binary (op : BinaryOperator) (f g : Formula) :
    tree (.binary op f g) = .binary op f.tree g.tree := by
  rw [tree, tree, tree, Term.walk_eq_fold, Term.walk_eq_fold, Term.walk_eq_fold]
  rfl

/-- What holds of the texts of the operands, and of `0`, holds of the leaves of the tree. -/
theorem allLeaves_tree {P : String → Prop} (hzero : P "0") {f : Formula}
    (h : f.AllLeaves fun operand => P operand.text) : f.tree.AllLeaves P := by
  induction f with
  | leaf operand =>
    rw [tree_leaf]
    exact h
  | unary op f ih =>
    cases op with
    | negation =>
      rw [tree_negation]
      exact ⟨hzero, ih h⟩
    | operation op =>
      rw [tree_operation]
      exact ih h
  | binary op f g ihl ihr =>
    rw [tree_binary]
    exact ⟨ihl h.1, ihr h.2⟩

/-! ## Formulas with a value -/

end Formula

/-- A name of an operand is bound. -/
def Operand.IsBound (bindings : Bindings) : Operand → Prop
  | constant _ _ => True
  | name text => (bindings.resolve? text).isSome

namespace Formula

/-- No operation of a formula is applied where it is undefined. -/
def IsDefined (bindings : Bindings) : Formula → Prop
  | .leaf _ => True
  | .unary op f => IsDefined bindings f ∧
      ∀ z, HasValue bindings f z → ∃ w, op.apply z = .ok w
  | .binary op f g => IsDefined bindings f ∧ IsDefined bindings g ∧
      ∀ z w, HasValue bindings f z → HasValue bindings g w → ∃ v, op.apply z w = .ok v

/-- **A formula has a value if its names are bound and its operations are defined.** -/
theorem exists_hasValue_iff {f : Formula} (hf : f.AllLeaves Operand.ReadsBack) :
    (∃ z, HasValue bindings f z) ↔
      f.AllLeaves (Operand.IsBound bindings) ∧ f.IsDefined bindings := by
  induction f with
  | leaf operand =>
    simp only [hasValue_leaf_iff, Term.AllLeaves, IsDefined, and_true]
    cases operand with
    | constant text value => exact iff_of_true ⟨value, hf bindings⟩ trivial
    | name text =>
      have hletters : text.toList.all isLetter = true := hf
      rw [Operand.text, leafValue?, if_pos hletters, Operand.IsBound, Option.isSome_iff_exists]
  | unary op f ih =>
    rw [Term.AllLeaves, IsDefined, ← and_assoc, ← ih hf]
    constructor
    · rintro ⟨w, h⟩
      obtain ⟨z, hz, happly⟩ := hasValue_unary_iff.1 h
      -- the operand has no other value than the one that the operation is applied to
      refine ⟨⟨z, hz⟩, fun z' hz' => ⟨w, ?_⟩⟩
      rwa [hz'.unique hz]
    · rintro ⟨⟨z, hz⟩, hdefined⟩
      obtain ⟨w, happly⟩ := hdefined z hz
      exact ⟨w, hasValue_unary_iff.2 ⟨z, hz, happly⟩⟩
  | binary op f g ihl ihr =>
    rw [Term.AllLeaves, IsDefined]
    constructor
    · rintro ⟨v, h⟩
      obtain ⟨z, w, hz, hw, happly⟩ := hasValue_binary_iff.1 h
      obtain ⟨hbound, hdefined⟩ := (ihl hf.1).1 ⟨z, hz⟩
      obtain ⟨hbound', hdefined'⟩ := (ihr hf.2).1 ⟨w, hw⟩
      refine ⟨⟨hbound, hbound'⟩, hdefined, hdefined', fun z' w' hz' hw' => ⟨v, ?_⟩⟩
      rwa [hz'.unique hz, hw'.unique hw]
    · rintro ⟨⟨hbound, hbound'⟩, hdefined, hdefined', happly⟩
      obtain ⟨z, hz⟩ := (ihl hf.1).2 ⟨hbound, hdefined⟩
      obtain ⟨w, hw⟩ := (ihr hf.2).2 ⟨hbound', hdefined'⟩
      obtain ⟨v, hv⟩ := happly z w hz hw
      exact ⟨v, hasValue_binary_iff.2 ⟨z, w, hz, hw, hv⟩⟩

end Formula

end ComplexFormula
