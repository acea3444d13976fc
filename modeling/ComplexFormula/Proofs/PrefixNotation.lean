/-
# Reading prefix notation back

In prefix notation the spellings of operators and the leaves are words, which end at a space
or a closing parenthesis, and an operation opens a parenthesis. So a text has at most one
tree.

* `Tree.prefixText_eq_prefixForm` : what is written with a list of pieces;
* `Tree.prefixForm_append_inj` : a tree at the front of a text is determined by the text;
* `Tree.eq_of_prefixText_eq` : trees with words at the leaves differ in prefix notation.
-/
import ComplexFormula.Proofs.Term
import ComplexFormula.Tree

namespace ComplexFormula

/-! ## Words -/

/-- The characters of words: all but the space and the parentheses. -/
def isWordChar (c : Char) : Bool := c != ' ' && c != '(' && c != ')'

/-- A text that is written as one word. -/
structure IsWord (s : List Char) : Prop where
  ne_nil : s ≠ []
  chars : ∀ c ∈ s, isWordChar c = true

/-- A text in front of which a word ends. -/
def EndsWord (s : List Char) : Prop := ∀ c ∈ s.head?, isWordChar c = false

namespace IsWord

variable {p q x y : List Char}

/-- A word is the longest run of its characters. -/
theorem takeWhile_append (hp : IsWord p) (hx : EndsWord x) :
    (p ++ x).takeWhile isWordChar = p := by
  rw [List.takeWhile_append_of_pos hp.chars]
  cases x with
  | nil => rw [List.takeWhile_nil, List.append_nil]
  | cons c x =>
    rw [List.takeWhile_cons_of_neg (by simpa using hx c rfl), List.append_nil]

/-- A word at the front of a text is determined by the text. -/
theorem append_inj (hp : IsWord p) (hq : IsWord q) (hx : EndsWord x) (hy : EndsWord y)
    (h : p ++ x = q ++ y) : p = q ∧ x = y := by
  have hword := congrArg (List.takeWhile isWordChar) h
  rw [hp.takeWhile_append hx, hq.takeWhile_append hy] at hword
  rw [hword] at h
  exact ⟨hword, List.append_cancel_left h⟩

/-- A word does not open a parenthesis. -/
theorem append_ne_open (hp : IsWord p) : p ++ x ≠ '(' :: y := by
  cases p with
  | nil => exact absurd rfl hp.ne_nil
  | cons c p =>
    intro h
    rw [List.cons_append] at h
    have hc := hp.chars c List.mem_cons_self
    rw [(List.cons.inj h).1] at hc
    exact absurd hc (by decide)

end IsWord

/-! ## Spellings of operators -/

/-- A spelling leads back to its operation. -/
theorem UnaryOperator.ofLabel?_label (op : UnaryOperator) : ofLabel? op.label = some op := by
  cases op with
  | call f => cases f <;> rfl
  | _ => rfl

/-- Operations on one operand are spelled differently. -/
theorem UnaryOperator.label_inj {op op' : UnaryOperator} (h : op.label = op'.label) :
    op = op' := by
  have hlabel := congrArg ofLabel? h
  rw [ofLabel?_label, ofLabel?_label] at hlabel
  exact Option.some.inj hlabel

/-- The spelling of an operation on one operand is a word. -/
theorem UnaryOperator.isWord_label (op : UnaryOperator) : IsWord op.label.toList := by
  cases op with
  | call f => cases f <;> exact ⟨by decide, List.all_eq_true.1 (by decide)⟩
  | _ => exact ⟨by decide, List.all_eq_true.1 (by decide)⟩

/-- Operators are spelled differently. -/
theorem BinaryOperator.symbol_inj {op op' : BinaryOperator} (h : op.symbol = op'.symbol) :
    op = op' := by
  cases op <;> cases op' <;> first | rfl | exact absurd h (by decide)

/-- The spelling of an operator is a word. -/
theorem BinaryOperator.isWord_symbol (op : BinaryOperator) : IsWord [op.symbol] := by
  cases op <;> exact ⟨by decide, List.all_eq_true.1 (by decide)⟩

/-- An operation on one operand is not spelled like an operator. -/
theorem UnaryOperator.label_ne_symbol (op : UnaryOperator) (op' : BinaryOperator) :
    op.label.toList ≠ [op'.symbol] := by
  cases op with
  | call f => cases f <;> cases op' <;> decide
  | _ => cases op' <;> decide

namespace Tree

/-! ## Writing with a list of pieces -/

/-- What a piece writes. -/
def Piece.written : Piece → String
  | tree t => t.prefixForm
  | mark text => text

/-- All that some pieces write. -/
def Piece.allWritten : List Piece → String
  | [] => ""
  | piece :: rest => piece.written ++ allWritten rest

/-- Pieces are written after the text, in order. -/
theorem writeOnto_eq (text : String) (pieces : List Piece) :
    writeOnto text pieces = text ++ Piece.allWritten pieces := by
  fun_induction writeOnto text pieces with
  | case1 text => rw [Piece.allWritten, String.append_empty]
  | case2 text mark rest ih =>
    rw [ih, Piece.allWritten, Piece.written, String.append_assoc]
  | case3 text content rest ih =>
    rw [ih, Piece.allWritten, Piece.written, prefixForm, String.append_assoc]
  | case4 text op operand rest ih =>
    rw [ih]
    simp only [Piece.allWritten, Piece.written, prefixForm, String.append_assoc]
  | case5 text op left right rest ih =>
    rw [ih]
    simp only [Piece.allWritten, Piece.written, prefixForm, String.append_assoc]

/-- **Prefix notation is written by recursion on the structure.** -/
theorem prefixText_eq_prefixForm (t : Tree) : t.prefixText = t.prefixForm := by
  rw [prefixText, writeOnto_eq, Piece.allWritten, Piece.allWritten, Piece.written,
    String.empty_append, String.append_empty]

/-! ## Unique trees -/

/-- A text that may stand at a leaf: it is not empty, and there is neither a space nor a
parenthesis in it. -/
def IsPlain (content : String) : Prop :=
  content ≠ "" ∧ ∀ c ∈ content.toList, c ≠ ' ' ∧ c ≠ '(' ∧ c ≠ ')'

/-- A plain text is a word. -/
theorem IsPlain.isWord {content : String} (h : IsPlain content) : IsWord content.toList where
  ne_nil hnil := h.1 (String.toList_inj.1 hnil)
  chars c hc := by
    obtain ⟨hspace, hopen, hclose⟩ := h.2 c hc
    simp [isWordChar, hspace, hopen, hclose]

/-- The characters of an operation on one operand. -/
theorem toList_prefixForm_unary (op : UnaryOperator) (operand : Tree) (x : List Char) :
    (prefixForm (.unary op operand)).toList ++ x
      = '(' :: (op.label.toList ++ ' ' :: ((prefixForm operand).toList ++ ')' :: x)) := by
  simp [prefixForm]

/-- The characters of an operation on two operands. -/
theorem toList_prefixForm_binary (op : BinaryOperator) (left right : Tree) (x : List Char) :
    (prefixForm (.binary op left right)).toList ++ x
      = '(' :: ([op.symbol] ++ ' ' :: ((prefixForm left).toList ++
          ' ' :: ((prefixForm right).toList ++ ')' :: x))) := by
  simp [prefixForm]

/-- A word ends at a space. -/
theorem endsWord_space (x : List Char) : EndsWord (' ' :: x) := by
  simp [EndsWord, isWordChar]

/-- A word ends at a closing parenthesis. -/
theorem endsWord_close (x : List Char) : EndsWord (')' :: x) := by
  simp [EndsWord, isWordChar]

/-- **A tree at the front of a text is determined by the text.** -/
theorem prefixForm_append_inj {s t : Tree} (hs : s.AllLeaves IsPlain)
    (ht : t.AllLeaves IsPlain) {x y : List Char} (hx : EndsWord x) (hy : EndsWord y)
    (h : s.prefixForm.toList ++ x = t.prefixForm.toList ++ y) : s = t ∧ x = y := by
  -- what follows an operand is a space or a parenthesis, so the operand ends where it should
  induction s generalizing t x y with
  | leaf content =>
    have hword : IsWord content.toList := IsPlain.isWord hs
    cases t with
    | leaf content' =>
      obtain ⟨hcontent, hxy⟩ := hword.append_inj (IsPlain.isWord ht) hx hy h
      exact ⟨congrArg Term.leaf (String.toList_inj.1 hcontent), hxy⟩
    | unary op' operand' =>
      rw [toList_prefixForm_unary] at h
      exact absurd h hword.append_ne_open
    | binary op' left' right' =>
      rw [toList_prefixForm_binary] at h
      exact absurd h hword.append_ne_open
  | unary op operand ih =>
    rw [toList_prefixForm_unary] at h
    cases t with
    | leaf content' => exact absurd h.symm (IsPlain.isWord ht).append_ne_open
    | unary op' operand' =>
      rw [toList_prefixForm_unary] at h
      obtain ⟨hlabel, htail⟩ := op.isWord_label.append_inj op'.isWord_label
        (endsWord_space _) (endsWord_space _) (List.cons.inj h).2
      obtain rfl := UnaryOperator.label_inj (String.toList_inj.1 hlabel)
      obtain ⟨rfl, hend⟩ := ih (t := operand') hs ht (endsWord_close x) (endsWord_close y)
        (List.cons.inj htail).2
      exact ⟨rfl, (List.cons.inj hend).2⟩
    | binary op' left' right' =>
      rw [toList_prefixForm_binary] at h
      obtain ⟨hlabel, -⟩ := op.isWord_label.append_inj op'.isWord_symbol (endsWord_space _)
        (endsWord_space _) (List.cons.inj h).2
      exact absurd hlabel (op.label_ne_symbol op')
  | binary op left right ihl ihr =>
    rw [toList_prefixForm_binary] at h
    cases t with
    | leaf content' => exact absurd h.symm (IsPlain.isWord ht).append_ne_open
    | unary op' operand' =>
      rw [toList_prefixForm_unary] at h
      obtain ⟨hlabel, -⟩ := op.isWord_symbol.append_inj op'.isWord_label (endsWord_space _)
        (endsWord_space _) (List.cons.inj h).2
      exact absurd hlabel.symm (op'.label_ne_symbol op)
    | binary op' left' right' =>
      rw [toList_prefixForm_binary] at h
      obtain ⟨hsymbol, htail⟩ := op.isWord_symbol.append_inj op'.isWord_symbol
        (endsWord_space _) (endsWord_space _) (List.cons.inj h).2
      obtain rfl := BinaryOperator.symbol_inj (List.cons.inj hsymbol).1
      obtain ⟨rfl, hright⟩ := ihl hs.1 ht.1 (endsWord_space _) (endsWord_space _)
        (List.cons.inj htail).2
      obtain ⟨rfl, hend⟩ := ihr hs.2 ht.2 (endsWord_close x) (endsWord_close y)
        (List.cons.inj hright).2
      exact ⟨rfl, (List.cons.inj hend).2⟩

/-- **Trees with plain leaves differ in prefix notation.** -/
theorem eq_of_prefixText_eq {s t : Tree} (hs : s.AllLeaves IsPlain)
    (ht : t.AllLeaves IsPlain) (h : s.prefixText = t.prefixText) : s = t := by
  rw [prefixText_eq_prefixForm, prefixText_eq_prefixForm] at h
  have hend : EndsWord [] := by simp [EndsWord]
  refine (prefixForm_append_inj hs ht hend hend ?_).1
  rw [h]

end Tree

end ComplexFormula
