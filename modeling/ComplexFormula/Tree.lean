/-
# Syntax trees

The tree of a formula as it is shown: leaves hold the text of a numeral, a name or a
parenthesised literal, and inner nodes an operator.

* `Tree.copy` : the tree, built anew node by node;
* `Tree.prefixText` : the tree in fully parenthesised prefix notation, `(+ 2 (* 3 4))`;
* `Tree.debugText` : the same between quotes;
* `Tree.drawing` : the tree with the values of its leaves, for drawing.
-/
import ComplexFormula.Bindings
import ComplexFormula.Complex.Literal
import ComplexFormula.Drawing
import ComplexFormula.Operator
import ComplexFormula.Term.Assembly

namespace ComplexFormula

/-- A syntax tree. -/
abbrev Tree := Term String UnaryOperator BinaryOperator

namespace Tree

/-- A negated tree: there is no node for a sign, so it is subtracted from `0`. -/
def negation (t : Tree) : Tree := .binary .sub (.leaf "0") t

/-- The text of a leaf, or the spelling of an operator. -/
def text : Tree → String
  | .leaf content => content
  | .unary op _ => op.label
  | .binary op _ _ => op.symbol.toString

/-! ## Copies -/

/-- A node of the same kind over given children. A node with too few of them becomes a leaf
with its text. -/
def rebuild : Tree → List Tree → Tree
  | .unary op _, operand :: _ => .unary op operand
  | .binary op _ _, left :: right :: _ => .binary op left right
  | node, _ => .leaf node.text

/-- The tree, built anew node by node. -/
def copy (t : Tree) : Tree := t.assemble rebuild

/-! ## Prefix notation -/

/-- The tree in prefix notation, by recursion on its structure. -/
def prefixForm : Tree → String
  | .leaf content => content
  | .unary op operand => "(" ++ op.label ++ " " ++ prefixForm operand ++ ")"
  | .binary op left right =>
    "(" ++ op.symbol.toString ++ " " ++ prefixForm left ++ " " ++ prefixForm right ++ ")"

/-- What is still to be written of a tree in prefix notation. -/
inductive Piece where
  | tree (t : Tree)
  | mark (text : String)

/-- How much writing a piece holds. -/
def Piece.weight : Piece → Nat
  | tree t => 4 * t.size
  | mark _ => 1

/-- How much writing some pieces hold. -/
def Piece.totalWeight : List Piece → Nat
  | [] => 0
  | piece :: rest => piece.weight + totalWeight rest

/-- Adds pieces to a text, in order. -/
def writeOnto (text : String) (pieces : List Piece) : String :=
  match pieces with
  | [] => text
  | .mark mark :: rest => writeOnto (text ++ mark) rest
  | .tree (.leaf content) :: rest => writeOnto (text ++ content) rest
  | .tree (.unary op operand) :: rest =>
    writeOnto (text ++ "(" ++ op.label ++ " ") (.tree operand :: .mark ")" :: rest)
  | .tree (.binary op left right) :: rest =>
    writeOnto (text ++ "(" ++ op.symbol.toString ++ " ")
      (.tree left :: .mark " " :: .tree right :: .mark ")" :: rest)
termination_by Piece.totalWeight pieces
decreasing_by
  all_goals
    simp only [Piece.totalWeight, Piece.weight, Term.size]
    omega

/-- The tree in prefix notation, without recursion on its depth. -/
def prefixText (t : Tree) : String := writeOnto "" [.tree t]

/-- The prefix notation between quotes. -/
def debugText (t : Tree) : String := "AstNode(" ++ quoted t.prefixText ++ ")"

/-! ## Drawings -/

/-- The label of a leaf: a bound name with its value, a literal in canonical form, anything
else as it is. -/
def leafLabel (bindings : Bindings) (content : String) : String :=
  match bindings.resolve? content with
  | some value => content ++ " = " ++ value.canonical
  | none =>
    match Complex.ofLiteral content with
    | .ok value => value.canonical
    | .error _ => content

/-- The label of a node: that of a leaf shows a value, and any other is the spelling of its
operator. -/
def displayLabel (bindings : Bindings) : Tree → String
  | .leaf content => leafLabel bindings content
  | node => node.text

/-- The drawing with a label for every node of a tree, by recursion on its structure. -/
def image (label : Tree → String) : Tree → Drawing
  | .leaf content => .node (label (.leaf content)) []
  | .unary op operand => .node (label (.unary op operand)) [image label operand]
  | .binary op left right =>
    .node (label (.binary op left right)) [image label left, image label right]

/-- The tree for drawing, with the values of its leaves under some bindings. -/
def drawing (bindings : Bindings) (t : Tree) : Drawing :=
  t.assemble fun node children => .node (displayLabel bindings node) children

/-- Every node of the tree is drawn, with its label. -/
theorem drawing_eq_image (bindings : Bindings) (t : Tree) :
    t.drawing bindings = t.image (displayLabel bindings) := by
  rw [drawing]
  induction t with
  | leaf content => rw [Term.assemble_leaf, image]
  | unary op operand ih => rw [Term.assemble_unary, ih, image]
  | binary op left right ihl ihr => rw [Term.assemble_binary, ihl, ihr, image]

/-- The drawing of a computation: its result above the tree. -/
def execution (bindings : Bindings) (result : Complex) (t : Tree) : Drawing :=
  .node ("Resultado: " ++ result.canonical) [t.drawing bindings]

end Tree

end ComplexFormula
