/-
# Pictures of trees

The picture of a tree has a line for every node, and the columns in front of a label tell how
deep the node lies. They do so whatever the labels are made of: the columns are read from the
left, and the first branch ends them. So a picture has only one tree.

* `Drawing.outline` : the labels of a tree in pre-order, each with its depth;
* `Drawing.outlineAll_append_inj` : trees at the front of an outline are determined by it;
* `Drawing.toList_renderOnto` : what is drawn with a list of pending subtrees;
* `Drawing.columns_branch_inj` : a line is read in one way;
* `Tree.oneLineLabels_execution` : the labels of an execution have no line break;
* `Drawing.render_determines` : what a picture tells.
-/
import Mathlib.Data.List.Forall2
import ComplexFormula.Proofs.Calculator
import ComplexFormula.Proofs.Labels

namespace ComplexFormula

namespace Drawing

/-- What holds of no trees, and of a tree and its siblings if it holds of its children and of
the siblings, holds of all lists of trees. -/
theorem forest_induction {P : List Drawing → Prop} (nil : P [])
    (cons : ∀ label children rest, P children → P rest → P (node label children :: rest)) :
    ∀ trees, P trees
  | [] => nil
  | node label children :: rest =>
    cons label children rest (forest_induction nil cons children)
      (forest_induction nil cons rest)

/-! ## Outlines -/

mutual

/-- The labels of a tree in pre-order, each with its depth. -/
def outline (depth : Nat) : Drawing → List (Nat × String)
  | node label children => (depth, label) :: outlineAll (depth + 1) children

/-- The labels of some trees at one depth. -/
def outlineAll (depth : Nat) : List Drawing → List (Nat × String)
  | [] => []
  | tree :: rest => tree.outline depth ++ outlineAll depth rest

end

/-- The outline of some trees has an entry for every node. -/
theorem length_outlineAll (depth : Nat) (trees : List Drawing) :
    (outlineAll depth trees).length = sizeAll trees := by
  induction trees using forest_induction generalizing depth with
  | nil => rfl
  | cons label children rest ihc ihr =>
    rw [outlineAll, outline, List.length_append, List.length_cons, ihc, ihr, sizeAll, size]

/-- An outline has an entry for every node. -/
theorem length_outline (depth : Nat) (t : Drawing) : (t.outline depth).length = t.size := by
  cases t with
  | node label children => rw [outline, List.length_cons, length_outlineAll, size]

/-- What begins above a depth, if with anything. -/
def BeginsAbove (depth : Nat) (entries : List (Nat × String)) : Prop :=
  ∀ entry ∈ entries.head?, entry.1 < depth

/-- Behind the children of a node comes what is no deeper than the node. -/
theorem BeginsAbove.outlineAll_append {depth : Nat} {entries : List (Nat × String)}
    (h : BeginsAbove depth entries) (trees : List Drawing) :
    BeginsAbove (depth + 1) (outlineAll depth trees ++ entries) := by
  cases trees with
  | nil => exact fun entry hentry => (h entry hentry).trans (Nat.lt_succ_self depth)
  | cons tree rest =>
    cases tree with
    | node label children =>
      rintro entry hentry
      rw [← Option.some.inj hentry]
      exact Nat.lt_succ_self depth

/-- What begins above a depth does not begin with a tree at this depth. -/
theorem BeginsAbove.ne_outlineAll_append {depth : Nat} {entries : List (Nat × String)}
    (h : BeginsAbove depth entries) (label : String) (children rest : List Drawing)
    (others : List (Nat × String)) :
    entries ≠ outlineAll depth (node label children :: rest) ++ others := by
  rintro rfl
  exact Nat.lt_irrefl depth (h (depth, label) rfl)

/-- **Trees at the front of an outline are determined by it**, if what follows lies less
deep. -/
theorem outlineAll_append_inj {depth : Nat} {xs ys : List Drawing}
    {us vs : List (Nat × String)} (hus : BeginsAbove depth us) (hvs : BeginsAbove depth vs)
    (h : outlineAll depth xs ++ us = outlineAll depth ys ++ vs) : xs = ys ∧ us = vs := by
  induction xs using forest_induction generalizing depth ys us vs with
  | nil =>
    match ys with
    | [] => exact ⟨rfl, h⟩
    | node label children :: rest => exact absurd h (hus.ne_outlineAll_append _ _ _ _)
  | cons label children rest ihc ihr =>
    match ys with
    | [] => exact absurd h.symm (hvs.ne_outlineAll_append _ _ _ _)
    | node label' children' :: rest' =>
      simp only [outlineAll, outline, List.cons_append, List.append_assoc, List.cons.injEq,
        Prod.mk.injEq, true_and] at h
      -- the children are one level deeper than their parent and what follows it
      obtain ⟨rfl, hbelow⟩ := h
      obtain ⟨rfl, hbehind⟩ := ihc (hus.outlineAll_append rest) (hvs.outlineAll_append rest')
        hbelow
      obtain ⟨rfl, rfl⟩ := ihr hus hvs hbehind
      exact ⟨rfl, rfl⟩

/-- Trees are determined by their outline. -/
theorem outlineAll_inj {depth : Nat} {xs ys : List Drawing}
    (h : outlineAll depth xs = outlineAll depth ys) : xs = ys := by
  have hnil : BeginsAbove depth [] := fun entry hentry => absurd hentry (Option.not_mem_none _)
  exact (outlineAll_append_inj hnil hnil (congrArg (· ++ []) h)).1

/-- The labels of a tree, in pre-order. -/
def labels (t : Drawing) : List String := (t.outline 0).map Prod.snd

/-- No label of a tree has a line break. -/
def OneLineLabels (t : Drawing) : Prop := ∀ label ∈ t.labels, '\n' ∉ label.toList

instance : DecidablePred OneLineLabels := fun t =>
  inferInstanceAs (Decidable (∀ label ∈ t.labels, '\n' ∉ label.toList))

/-! ## Lines -/

mutual

/-- The lines of a child behind a margin: its own, and those of its children. -/
def rows (margin : List Char) (isLast : Bool) : Drawing → List (List Char)
  | node label children =>
    (margin ++ (branch isLast).toList ++ label.toList)
      :: rowsAll (margin ++ (indent isLast).toList) children

/-- The lines of siblings behind a margin. -/
def rowsAll (margin : List Char) : List Drawing → List (List Char)
  | [] => []
  | tree :: rest => tree.rows margin rest.isEmpty ++ rowsAll margin rest

end

/-- The lines of a pending subtree. -/
def Pending.rows (item : Pending) : List (List Char) :=
  item.tree.rows item.margin.toList item.isLast

/-- Lines as a text. -/
def unlines (lines : List (List Char)) : List Char := lines.flatMap fun line => line ++ ['\n']

/-- The children of a node are pending with their lines. -/
theorem flatMap_rows_pendingChildren (margin : String) (trees : List Drawing) :
    (pendingChildren margin trees).flatMap Pending.rows = rowsAll margin.toList trees := by
  induction trees with
  | nil => rfl
  | cons tree rest ih => rw [pendingChildren, List.flatMap_cons, ih, rowsAll, Pending.rows]

/-- Drawing adds the lines of what is pending. -/
theorem toList_renderOnto (text : String) (pending : List Pending) :
    (renderOnto text pending).toList = text.toList ++ unlines (pending.flatMap Pending.rows) := by
  fun_induction renderOnto text pending with
  | case1 text => exact (List.append_nil _).symm
  | case2 text label children margin isLast rest ih =>
    rw [ih, List.flatMap_append, flatMap_rows_pendingChildren, List.flatMap_cons, Pending.rows,
      rows]
    simp [unlines, String.toList_append]

/-- The lines of a picture: the label of the root, and the lines of its children. -/
def lines : Drawing → List (List Char)
  | node label children => label.toList :: rowsAll [] children

/-- **The picture of a tree consists of its lines.** -/
theorem toList_render (t : Drawing) : t.render.toList = unlines t.lines := by
  cases t with
  | node label children =>
    rw [render, toList_renderOnto, flatMap_rows_pendingChildren]
    simp [unlines, lines, String.toList_append]

/-- Lines are what a text is split into at its line breaks, with nothing behind the last. -/
theorem splitOn_unlines {lines : List (List Char)} (h : ∀ line ∈ lines, '\n' ∉ line) :
    (unlines lines).splitOn '\n' = lines ++ [[]] := by
  induction lines with
  | nil => exact List.splitOn_nil _
  | cons line lines ih =>
    rw [List.forall_mem_cons] at h
    rw [unlines, List.flatMap_cons, List.append_assoc, List.singleton_append,
      List.splitOn_append_cons_self_of_not_mem h.1]
    exact congrArg (line :: ·) (ih h.2)

/-- Such lines are determined by their text. -/
theorem unlines_inj {lines lines' : List (List Char)} (h : ∀ line ∈ lines, '\n' ∉ line)
    (h' : ∀ line ∈ lines', '\n' ∉ line) (heq : unlines lines = unlines lines') :
    lines = lines' := by
  have hsplit := congrArg (List.splitOn '\n') heq
  rw [splitOn_unlines h, splitOn_unlines h'] at hsplit
  exact List.append_cancel_right hsplit

/-! ## Reading a line -/

/-- The columns in front of what lies below some nodes, each the last of its siblings or
not. -/
def columns (above : List Bool) : List Char := above.flatMap fun isLast => (indent isLast).toList

/-- The column of the uppermost node comes first. -/
theorem columns_cons_append (isLast : Bool) (above : List Bool) (s t : List Char) :
    columns (isLast :: above) ++ s ++ t
      = (indent isLast).toList ++ (columns above ++ s ++ t) := by
  simp [columns]

/-- The column of the lowest node comes last. -/
theorem columns_concat (above : List Bool) (isLast : Bool) :
    columns (above ++ [isLast]) = columns above ++ (indent isLast).toList := by
  rw [columns, List.flatMap_append, List.flatMap_singleton]
  rfl

/-- A line shows a label below the root: behind a column for each node in between, and its
branch. -/
def ShowsBelow (entry : Nat × String) (line : List Char) : Prop :=
  ∃ (above : List Bool) (isLast : Bool), entry.1 = above.length + 1 ∧
    line = columns above ++ (branch isLast).toList ++ entry.2.toList

/-- A line shows a label at a depth: that of the root by itself. -/
def Shows (entry : Nat × String) (line : List Char) : Prop :=
  entry.1 = 0 ∧ line = entry.2.toList ∨ ShowsBelow entry line

/-- Each tree below the root is shown by its lines. -/
theorem forall₂_showsBelow (above : List Bool) (trees : List Drawing) :
    List.Forall₂ ShowsBelow (outlineAll (above.length + 1) trees)
      (rowsAll (columns above) trees) := by
  induction trees using forest_induction generalizing above with
  | nil => exact .nil
  | cons label children rest ihc ihr =>
    rw [outlineAll, rowsAll, outline, rows]
    refine List.rel_append (.cons ⟨above, _, rfl, rfl⟩ ?_) (ihr above)
    have hbelow := ihc (above ++ [rest.isEmpty])
    rw [columns_concat, List.length_append] at hbelow
    exact hbelow

/-- A column begins unlike a branch. -/
theorem indent_append_ne_branch (isLast isLast' : Bool) (s t : List Char) :
    (indent isLast).toList ++ s ≠ (branch isLast').toList ++ t := by
  cases isLast <;> cases isLast' <;> simp [indent, branch]

/-- Columns are four characters wide. -/
theorem length_indent (isLast : Bool) : (indent isLast).toList.length = 4 := by
  cases isLast <;> rfl

/-- Branches are four characters wide. -/
theorem length_branch (isLast : Bool) : (branch isLast).toList.length = 4 := by
  cases isLast <;> rfl

/-- **Columns, the branch that ends them, and the label are determined by the line**, as the
columns are one width and none begins like a branch. -/
theorem columns_branch_inj {above above' : List Bool} {isLast isLast' : Bool} {s t : List Char}
    (h : columns above ++ (branch isLast).toList ++ s
      = columns above' ++ (branch isLast').toList ++ t) :
    above.length = above'.length ∧ s = t := by
  induction above generalizing above' with
  | nil =>
    cases above' with
    | nil =>
      have hwidth := (length_branch isLast).trans (length_branch isLast').symm
      exact ⟨rfl, (List.append_inj h hwidth).2⟩
    | cons b above' =>
      rw [columns_cons_append] at h
      exact absurd h.symm (indent_append_ne_branch _ _ _ _)
  | cons b above ih =>
    cases above' with
    | nil =>
      rw [columns_cons_append] at h
      exact absurd h (indent_append_ne_branch _ _ _ _)
    | cons b' above' =>
      rw [columns_cons_append, columns_cons_append] at h
      have hwidth := (length_indent b).trans (length_indent b').symm
      obtain ⟨hlength, hst⟩ := ih (List.append_inj h hwidth).2
      exact ⟨congrArg (· + 1) hlength, hst⟩

/-- A line below the root shows one label, at one depth. -/
theorem leftUnique_showsBelow : Relator.LeftUnique ShowsBelow := by
  rintro ⟨depth, label⟩ ⟨depth', label'⟩ line ⟨above, isLast, hdepth, hline⟩
    ⟨above', isLast', hdepth', hline'⟩
  obtain ⟨hlength, hlabel⟩ := columns_branch_inj (hline.symm.trans hline')
  rw [Prod.mk.injEq]
  exact ⟨hdepth.trans ((congrArg (· + 1) hlength).trans hdepth'.symm),
    String.toList_inj.1 hlabel⟩

/-! ## Reading a picture -/

/-- The lines of a picture show the outline. -/
theorem forall₂_shows_lines (t : Drawing) : List.Forall₂ Shows (t.outline 0) t.lines := by
  cases t with
  | node label children =>
    refine .cons (Or.inl ⟨rfl, rfl⟩) ?_
    exact (forall₂_showsBelow [] children).imp fun _ _ h => Or.inr h

/-- The columns and the branch of a line have no line break. -/
theorem Shows.newline_not_mem {entry : Nat × String} {line : List Char} (h : Shows entry line)
    (hlabel : '\n' ∉ entry.2.toList) : '\n' ∉ line := by
  rcases h with ⟨-, rfl⟩ | ⟨above, isLast, -, rfl⟩
  · exact hlabel
  · have hcolumns : '\n' ∉ columns above := by
      simp only [columns, List.mem_flatMap, not_exists, not_and]
      rintro (_ | _) -
      · decide
      · decide
    have hbranch : '\n' ∉ (branch isLast).toList := by
      cases isLast <;> decide
    simp only [List.mem_append, not_or]
    exact ⟨⟨hcolumns, hbranch⟩, hlabel⟩

/-- The lines of a picture have no line break where the labels have none. -/
theorem OneLineLabels.newline_not_mem {t : Drawing} (h : t.OneLineLabels) :
    ∀ line ∈ t.lines, '\n' ∉ line := by
  rw [OneLineLabels, labels, List.forall_mem_map] at h
  have hlines : List.Forall₂ (fun line entry => '\n' ∉ line ∧ Shows entry line) t.lines
      (t.outline 0) :=
    (((List.forall₂_and_left _ _).2 ⟨h, t.forall₂_shows_lines⟩).imp fun _ _ hshows =>
      ⟨hshows.2.newline_not_mem hshows.1, hshows.2⟩).flip
  exact ((List.forall₂_and_left _ _).1 hlines).1

/-- **A picture has only one tree.** -/
theorem eq_of_render_eq {d e : Drawing} (hd : d.OneLineLabels) (he : e.OneLineLabels)
    (h : d.render = e.render) : d = e := by
  have htext := congrArg String.toList h
  rw [toList_render, toList_render] at htext
  have hlines := unlines_inj hd.newline_not_mem he.newline_not_mem htext
  cases d with
  | node label children =>
    cases e with
    | node label' children' =>
      obtain ⟨hlabel, hrows⟩ := List.cons.inj hlines
      have hchildren := forall₂_showsBelow [] children'
      rw [columns, List.flatMap_nil, ← hrows] at hchildren
      have houtline := leftUnique_showsBelow.forall₂ (forall₂_showsBelow [] children) hchildren
      rw [String.toList_inj.1 hlabel, outlineAll_inj houtline]

end Drawing

/-! ## The labels of executions -/

namespace Tree

/-- What holds of the labels of all nodes holds of what is drawn. -/
theorem forall_mem_outline_image {P : String → Prop} {label : Tree → String}
    (hunary : ∀ op operand, P (label (.unary op operand)))
    (hbinary : ∀ op left right, P (label (.binary op left right))) {t : Tree}
    (ht : t.AllLeaves fun content => P (label (.leaf content))) (depth : Nat) :
    ∀ entry ∈ (t.image label).outline depth, P entry.2 := by
  induction t generalizing depth with
  | leaf content =>
    rw [image, Drawing.outline, Drawing.outlineAll, List.forall_mem_singleton]
    exact ht
  | unary op operand ih =>
    simp only [image, Drawing.outline, Drawing.outlineAll, List.forall_mem_cons,
      List.forall_mem_append]
    exact ⟨hunary op operand, ih ht _, List.forall_mem_nil _⟩
  | binary op left right ihl ihr =>
    simp only [image, Drawing.outline, Drawing.outlineAll, List.forall_mem_cons,
      List.forall_mem_append]
    exact ⟨hbinary op left right, ihl ht.1 _, ihr ht.2 _, List.forall_mem_nil _⟩

/-- The label of a leaf has no line break where its text has none. -/
theorem newline_not_mem_leafLabel (bindings : Bindings) {content : String}
    (h : '\n' ∉ content.toList) : '\n' ∉ (leafLabel bindings content).toList := by
  have hcanonical := Complex.not_mem_canonical (c := '\n') (by decide)
  rw [leafLabel]
  split
  · rename_i value hvalue
    rw [String.toList_append, String.toList_append, List.mem_append, List.mem_append, not_or,
      not_or]
    exact ⟨⟨h, by decide⟩, hcanonical value⟩
  · split
    · exact hcanonical _
    · exact h

/-- The labels of a drawing have no line break where the leaves have none. -/
theorem oneLineLabels_execution (bindings : Bindings) (result : Complex) {t : Tree}
    (h : t.AllLeaves fun content => '\n' ∉ content.toList) :
    (execution bindings result t).OneLineLabels := by
  rw [Drawing.OneLineLabels, Drawing.labels, List.forall_mem_map, execution, drawing_eq_image]
  simp only [Drawing.outline, Drawing.outlineAll, List.append_nil, List.forall_mem_cons]
  constructor
  · rw [String.toList_append, List.mem_append, not_or]
    exact ⟨by decide, Complex.not_mem_canonical (by decide) result⟩
  · refine forall_mem_outline_image (P := fun label => '\n' ∉ label.toList) ?_ ?_ ?_ _
    · intro op operand
      change '\n' ∉ op.label.toList
      cases op with
      | call f => cases f <;> decide
      | _ => decide
    · intro op left right
      change '\n' ∉ op.symbol.toString.toList
      cases op <;> decide
    · exact h.imp fun content hcontent => newline_not_mem_leafLabel bindings hcontent

end Tree

/-- The labels after a success have no line break. -/
theorem Evaluation.oneLineLabels_drawing {dialect : Dialect} {bindings : Bindings}
    {text : String} {e : Evaluation} (h : Evaluation.of dialect bindings text = .ok e) :
    e.drawing.OneLineLabels ∧ e.conjugate.drawing.OneLineLabels := by
  have hleaves : e.tree.AllLeaves fun content => '\n' ∉ content.toList :=
    (Calculator.isLeafText_of_evaluation h).imp fun _ htext =>
      htext.not_mem (by decide) (by decide)
  exact ⟨Tree.oneLineLabels_execution _ _ hleaves, Tree.oneLineLabels_execution _ _ hleaves⟩

namespace Drawing

/-! ## What a picture tells -/

/-- **A picture determines the tree**, where no label has a line break. Its lines are one for
each node, in pre-order, and each shows the label of its node and the depth. The drawings of
successful evaluations are such trees. -/
theorem render_determines :
    (∀ d e : Drawing, d.OneLineLabels → e.OneLineLabels → d.render = e.render → d = e) ∧
    (∀ d : Drawing, d.OneLineLabels → ∃ lines : List (List Char),
      d.render.toList.splitOn '\n' = lines ++ [[]] ∧ lines.length = d.size ∧
        List.Forall₂ Shows (d.outline 0) lines) ∧
    ∀ (c c' : Calculator) (bindings : Bindings) (text : String),
      c.evaluate bindings text = .ok c' ∨ c.evaluateConjugate bindings text = .ok c' →
        ∃ d, c'.drawing? = some d ∧ d.OneLineLabels := by
  refine ⟨fun d e => eq_of_render_eq, ?_, ?_⟩
  · intro d hd
    refine ⟨d.lines, ?_, ?_, d.forall₂_shows_lines⟩
    · rw [toList_render, splitOn_unlines hd.newline_not_mem]
    · rw [← d.forall₂_shows_lines.length_eq, length_outline]
  · rintro c c' bindings text (h | h)
    · obtain ⟨e, he, rfl⟩ := Calculator.evaluate_eq_ok_iff.1 h
      exact ⟨e.drawing, rfl, (Evaluation.oneLineLabels_drawing he).1⟩
    · obtain ⟨e, he, rfl⟩ := Calculator.evaluateConjugate_eq_ok_iff.1 h
      exact ⟨e.conjugate.drawing, rfl, (Evaluation.oneLineLabels_drawing he).2⟩

/-- Labels that look like branches do not make up for a level, and the labels of a product have
no line break. -/
theorem render_determines_lookalike :
    (node "+" [node "2" [node "3" []]]).render
        ≠ (node "+" [node "2" [], node "    └── 3" []]).render ∧
      ∃ d, (Calculator.evaluate {} (.ofList [("x", .unit)]) "2x").toOption.bind
        Calculator.drawing? = some d ∧ d.OneLineLabels := by
  constructor
  · intro h
    have htrees := render_determines.1 _ _ (by decide) (by decide) h
    simp at htrees
  · have hvalue : Calculator.evaluate {} (.ofList [("x", .unit)]) "2x" =
        .ok ⟨{}, some ⟨normalize {} "2x", .ofList [("x", .unit)],
          .binary .mul (.leaf "2") (.leaf "x"), ⟨0, 2⟩⟩⟩ := by
      decide +kernel
    rw [hvalue]
    exact render_determines.2.2 _ _ _ _ (Or.inl hvalue)

end Drawing

end ComplexFormula
