/-
# Formulas that are joined

Two texts in parentheses that are joined by an operator: neither sees the characters of the
other, the depth that it reached, or whether it was a literal. So the joined text has the two
trees under the operator, and the operation on the two values.

* `joined` : two texts in parentheses with an operator between them;
* `Formula.read_joined_of_fault`, `Formula.read_joined`, `Formula.exists_fault_of_joined` : how
  it is read;
* `Calculator.outcome_joined` : what its outcome is.
-/
import ComplexFormula.Proofs.Enclosed
import ComplexFormula.Proofs.Grammar.Mirror

namespace ComplexFormula

open Reader

/-! ## Normal forms -/

/-- Two texts in parentheses with a character between them. -/
def joined (c : Char) (s t : List Char) : List Char := enclosed s ++ c :: enclosed t

/-- A normal form has the parentheses of its text. -/
theorem balanced_normalChars (dialect : Dialect) (s : List Char) :
    Balanced (normalChars dialect s) ↔ Balanced s := by
  refine balanced_congr (filter_normalChars (by decide) (fun c hc => ?_) dialect s)
  have hopen : isBlank '(' = false := by decide
  have hclose : isBlank ')' = false := by decide
  rw [isParenthesis, Bool.or_eq_false_iff, beq_eq_false_iff_ne, beq_eq_false_iff_ne]
  constructor
  · rintro rfl
    exact absurd (hc.symm.trans hopen) (by decide)
  · rintro rfl
    exact absurd (hc.symm.trans hclose) (by decide)

/-- The normal form is split at an operator. -/
theorem normalChars_joined (dialect : Dialect) {c : Char} {op : BinaryOperator}
    (hop : BinaryOperator.ofChar? c = some op) (s t : List Char) :
    normalChars dialect (joined c s t)
      = joined c (normalChars dialect s) (normalChars dialect t) := by
  have hblank : ¬ isBlank c = true := by rw [isBlank_of_ofChar? hop]; exact Bool.false_ne_true
  have hblanks : withoutBlanks (joined c s t)
      = withoutBlanks (enclosed s) ++ c :: withoutBlanks (enclosed t) := by
    rw [joined, withoutBlanks, List.filter_append, List.filter_cons_of_pos (by simpa using hblank)]
    rfl
  rw [normalChars_eq, hblanks, withMarks_append dialect (detached_operator hop _),
    withMarks_operator dialect hop, ← normalChars_eq, ← normalChars_eq, normalChars_enclosed,
    normalChars_enclosed]
  rfl

/-- Between two groups a product is implied. -/
theorem normalChars_juxtaposed {dialect : Dialect} (himplied : dialect.impliedProducts = true)
    (s t : List Char) :
    normalChars dialect (enclosed s ++ enclosed t)
      = joined invisibleTimes (normalChars dialect s) (normalChars dialect t) := by
  have hblanks : withoutBlanks (enclosed s ++ enclosed t)
      = '(' :: (withoutBlanks s ++ ')' :: withoutBlanks (enclosed t)) := by
    rw [enclosed, withoutBlanks, List.filter_append, List.filter_cons_of_pos (by decide),
      List.filter_append, List.cons_append, List.append_assoc]
    rfl
  have hseam : seam dialect ')' (withoutBlanks (enclosed t)) = [invisibleTimes] := by
    rw [seam, himplied]
    rfl
  rw [normalChars_eq, hblanks, withMarks_start dialect (by decide) (by decide) (by decide),
    withMarks_append dialect (detached_close _), withMarks_symbol dialect (by decide), hseam,
    ← normalChars_eq, ← normalChars_eq, normalChars_enclosed]
  simp [joined, enclosed]

/-! ## Groups in front of a text -/

/-- The group in front of a balanced text in parentheses is the whole text. -/
theorem Derives.eq_nil_of_enclosed {dialect : Dialect} {X : Precedence} {depth : Nat}
    {f : Formula} {s rest : List Char} (hs : Balanced s)
    (h : Derives dialect X depth f (enclosed s) rest) : rest = [] := by
  obtain ⟨p, hp, hne, hbalanced⟩ := h.exists_balanced
  obtain ⟨c, p, rfl⟩ := List.exists_cons_of_ne_nil hne
  rw [enclosed, List.cons_append] at hp
  obtain ⟨rfl, hinside⟩ := List.cons.inj hp
  -- the front closes its first parenthesis, which only the last character can do
  obtain ⟨content, behind, rfl, hcontent, -⟩ := hbalanced.exists_of_open
  rw [List.append_assoc, List.cons_append] at hinside
  obtain rfl := hs.eq_of_append_close hcontent hinside
  have hbehind := (List.cons.inj (List.append_cancel_left hinside)).2
  exact (List.append_eq_nil_iff.1 hbehind.symm).2

/-- What is read off a balanced text in parentheses is the whole text, as a primary. -/
theorem exists_derives_of_read_group {page : Page} {levels : Nat} {f : Formula}
    {s rest : List Char} (hs : Balanced s)
    (h : (primary page levels).read (enclosed s) = .ok (f, rest)) :
    ∃ depth, depth ≤ levels ∧ Derives page.dialect .primary depth f (enclosed s) [] := by
  have hread : (Precedence.primary.reader (primary page levels)).read (enclosed s)
      = .ok (f, rest) := h
  obtain ⟨depth, hdepth, hderives⟩ := exists_derives_of_read hread
  obtain rfl := hderives.eq_nil_of_enclosed hs
  exact ⟨depth, hdepth, hderives⟩

/-! ## Groups before different texts -/

/-- Rests of two texts inside of a group that is the same in both, with different texts behind
it. -/
def InsideGroup (page page' : Page) (r r' : List Char) : Prop :=
  ∃ content behind behind', Balanced content ∧ r = content ++ ')' :: behind ∧
    r' = content ++ ')' :: behind' ∧ page.length + behind'.length = page'.length + behind.length

/-- **Inside of a group what stands behind it is not seen.** -/
theorem mirrors_insideGroup {page page' : Page} (hdialect : page'.dialect = page.dialect) :
    Mirrors id page page' (InsideGroup page page') where
  respelling := Respelling.refl
  limit := by rw [hdialect]
  position := by
    rintro r r' ⟨content, behind, behind', -, rfl, rfl, hlength⟩
    simp only [Page.position, List.length_append, List.length_cons]
    omega
  nil := by
    rintro r' ⟨content, behind, behind', -, hr, -⟩
    simp at hr
  advance := by
    rintro q r r' ⟨content, behind, behind', hcontent, hr, rfl, hlength⟩ hq
    obtain ⟨u, rfl, rfl, hu⟩ := hq.balanced.exists_of_append_close hcontent hr
    refine ⟨u ++ ')' :: behind', by simp, ?_⟩
    exact ⟨u, behind, behind', hu, rfl, rfl, hlength⟩
  descend := by
    rintro r r' ⟨content, behind, behind', hcontent, hr, rfl, hlength⟩
    cases content with
    | nil => simp at hr
    | cons c content =>
      rw [List.cons_append] at hr
      obtain ⟨rfl, rfl⟩ := List.cons.inj hr
      -- the parenthesis is closed inside of the content
      obtain ⟨inner, rest, rfl, hinner, -⟩ := hcontent.exists_of_open
      refine ⟨_, rfl, inner, rest ++ ')' :: behind, rest ++ ')' :: behind', hinner, ?_, ?_, ?_⟩
      · simp
      · simp
      · simp only [List.length_append, List.length_cons]
        omega
  close := by
    rintro r r' ⟨content, behind, behind', hcontent, hr, rfl, -⟩
    cases content with
    | nil => exact ⟨behind', rfl⟩
    | cons c content =>
      rw [List.cons_append] at hr
      obtain ⟨rfl, -⟩ := List.cons.inj hr
      exact absurd (staysOpen_cons.1 hcontent.staysOpen).2.nonneg (by decide)
  unclosed := by
    rintro r r' ⟨content, behind, behind', hcontent, rfl, -⟩ hindex
    rw [closingIndex?_eq_some_iff.2 ⟨content, behind, rfl, hcontent, rfl⟩] at hindex
    simp at hindex
  identifier := by
    rintro c r r' ⟨content, behind, behind', hcontent, hr, rfl, -⟩ hc
    rw [hdialect, hr]
    cases content with
    | nil =>
      rw [List.nil_append] at hr
      rw [(List.cons.inj hr).1] at hc
      exact absurd hc (by decide)
    | cons x content =>
      rw [Identifier.read_append _ (detached_close behind'),
        Identifier.read_append _ (detached_close behind)]
  literal := by
    intro content rest r' _ _
    rw [List.map_id]

/-- A group breaks off with the same fault whatever stands behind it. -/
theorem read_group_fault {dialect : Dialect} {s behind : List Char} (hs : Balanced s)
    {levels : Nat} {fault : Fault}
    (h : (primary (Page.ofText dialect (enclosed s)) levels).read (enclosed s) = .error fault) :
    (primary (Page.ofText dialect (enclosed s ++ behind)) levels).read (enclosed s ++ behind)
      = .error fault := by
  let page := Page.ofText dialect (enclosed s)
  let page' := Page.ofText dialect (enclosed s ++ behind)
  have hmirrors : Mirrors id page page' (InsideGroup page page') := mirrors_insideGroup rfl
  have hinside : InsideGroup page page' (s ++ ')' :: []) (s ++ ')' :: behind) := by
    refine ⟨s, [], behind, hs, rfl, rfl, ?_⟩
    simp [page, page', Page.ofText]
  have halike : Alike id dialect ('(' :: (s ++ ')' :: [])) ('(' :: (s ++ ')' :: behind))
      (readGroup page (nestedReader page levels) (s ++ ')' :: []))
      (readGroup page' (nestedReader page' levels) (s ++ ')' :: behind)) :=
    alike_readGroup hmirrors (fun n _ X => alike_read hmirrors n X) hinside
      fun content rest _ _ => by rw [List.map_id]
  have hopen : enclosed s ++ behind = '(' :: (s ++ ')' :: behind) := by simp [enclosed]
  rw [read_primary, hopen, readPrimary_open]
  rw [read_primary, enclosed, readPrimary_open] at h
  change readGroup page (nestedReader page levels) (s ++ ')' :: []) = _ at h
  rw [h] at halike
  rw [← Fault.mapText_id fault, ← halike.eq_error, ← hopen]

namespace Formula

variable {dialect : Dialect} {s t : List Char}

/-- Where the group in front of a text breaks off, no formula is read. -/
theorem read_of_group_fault {fault : Fault}
    (h : (primary (Page.ofText dialect ('(' :: s)) dialect.nestingLimit).read ('(' :: s)
      = .error fault) : read dialect ('(' :: s) = .error fault := by
  have hsum : (reader (Page.ofText dialect ('(' :: s))).read ('(' :: s) = .error fault :=
    read_of_tighter_fault (Precedence.rank_le_primary .sum) (by simp) h
  simp only [read, hsum]

/-- A balanced text in parentheses is read as its group. -/
theorem read_enclosed (hs : Balanced s) :
    read dialect (enclosed s)
      = ((primary (Page.ofText dialect (enclosed s)) dialect.nestingLimit).read
          (enclosed s)).map Prod.fst := by
  cases hread : (primary (Page.ofText dialect (enclosed s)) dialect.nestingLimit).read
      (enclosed s) with
  | error fault => exact read_of_group_fault hread
  | ok result =>
    obtain ⟨depth, hdepth, hderives⟩ := exists_derives_of_read_group hs hread
    exact read_eq_ok_iff.2 ⟨depth, hdepth, hderives.of_tighter (by decide)⟩

/-- The formula of a balanced text in parentheses is a primary. -/
theorem exists_derives_of_read_enclosed (hs : Balanced s) {f : Formula}
    (h : read dialect (enclosed s) = .ok f) :
    ∃ depth, depth ≤ dialect.nestingLimit ∧ Derives dialect .primary depth f (enclosed s) [] := by
  rw [read_enclosed hs] at h
  obtain ⟨⟨g, rest⟩, hread, rfl⟩ := map_eq_ok_iff.1 h
  exact exists_derives_of_read_group hs hread

/-! ## Joined texts -/

/-- **Where the left text breaks off, the joined text breaks off with the same fault.** -/
theorem read_joined_of_fault (hs : Balanced s) {fault : Fault}
    (h : read dialect (enclosed s) = .error fault) (c : Char) (t : List Char) :
    read dialect (joined c s t) = .error fault := by
  rw [read_enclosed hs, map_eq_error_iff] at h
  exact read_of_group_fault (read_group_fault hs h)

/-- **Where both texts are read, the joined text has their formulas under the operator.** -/
theorem read_joined (hs : Balanced s) (ht : Balanced t) {f g : Formula}
    (hleft : read dialect (enclosed s) = .ok f) (hright : read dialect (enclosed t) = .ok g)
    {c : Char} {op : BinaryOperator} (hop : BinaryOperator.ofChar? c = some op) :
    read dialect (joined c s t) = .ok (.binary op f g) := by
  obtain ⟨depth, hdepth, hf⟩ := exists_derives_of_read_enclosed hs hleft
  obtain ⟨depth', hdepth', hg⟩ := exists_derives_of_read_enclosed ht hright
  have hgroup := hf.append (.operator hop (enclosed t))
  rw [List.nil_append] at hgroup
  have hchain := Derives.chain rfl (hgroup.of_tighter op.precedence.rank_le_primary) hop
    (hg.of_tighter (Precedence.rank_le_primary _))
  exact read_eq_ok_iff.2 ⟨_, Nat.max_le.2 ⟨hdepth, hdepth'⟩,
    hchain.of_tighter (Nat.zero_le _)⟩

/-- Where only the right text breaks off, so does the joined text, behind the formula of the
left one and for any spelling of the operator alike. -/
theorem exists_fault_of_joined (hs : Balanced s) (ht : Balanced t) {f : Formula}
    {fault : Fault} (hleft : read dialect (enclosed s) = .ok f)
    (hright : read dialect (enclosed t) = .error fault) (op : BinaryOperator) :
    ∃ fault' : Fault, ∀ c, BinaryOperator.ofChar? c = some op →
      read dialect (joined c s t) = .error (fault'.after f) := by
  obtain ⟨depth, hdepth, hf⟩ := exists_derives_of_read_enclosed hs hleft
  -- the page has the same length for all spellings
  let page : Page := ⟨dialect, (joined op.symbol s t).length⟩
  have hpage : ∀ c, Page.ofText dialect (joined c s t) = page := by
    intro c
    simp [page, Page.ofText, joined]
  cases hgroup : (primary page dialect.nestingLimit).read (enclosed t) with
  | ok result =>
    obtain ⟨depth', hdepth', hg⟩ := exists_derives_of_read_group ht hgroup
    have hread := read_eq_ok_iff.2 ⟨depth', hdepth', hg.of_tighter (by decide)⟩
    rw [hread] at hright
    simp at hright
  | error fault' =>
    refine ⟨fault', fun c hop => ?_⟩
    have hgroup' := hf.append (.operator hop (enclosed t))
    have hchain := @read_eq_resume_of_derives page _ _ _ _ _ _
      (hgroup'.of_tighter op.precedence.rank_le_primary) hdepth
      (Precedence.follows_of_operator _ hop rfl)
    have hoperand := read_of_tighter_fault (Precedence.rank_le_primary op.precedence.tighter)
      (by simp [enclosed]) hgroup
    rw [List.nil_append, Precedence.resume_operator_of_fault hop rfl hoperand] at hchain
    have hsum : (Precedence.sum.reader (primary page dialect.nestingLimit)).read (joined c s t)
        = .error (fault'.after f) :=
      read_of_tighter_fault (Nat.zero_le _) (by simp [joined, enclosed]) hchain
    change (reader page).read (joined c s t) = _ at hsum
    unfold read
    simp only [hpage, hsum]

/-- The spelling of the operator does not matter. -/
theorem read_joined_congr (hs : Balanced s) (ht : Balanced t) {c c' : Char}
    {op : BinaryOperator} (hop : BinaryOperator.ofChar? c = some op)
    (hop' : BinaryOperator.ofChar? c' = some op) :
    read dialect (joined c s t) = read dialect (joined c' s t) := by
  cases hleft : read dialect (enclosed s) with
  | error fault => rw [read_joined_of_fault hs hleft, read_joined_of_fault hs hleft]
  | ok f =>
    cases hright : read dialect (enclosed t) with
    | ok g => rw [read_joined hs ht hleft hright hop, read_joined hs ht hleft hright hop']
    | error fault =>
      obtain ⟨fault', hfault⟩ := exists_fault_of_joined hs ht hleft hright op
      rw [hfault c hop, hfault c' hop']

/-! ## Values -/

variable {bindings : Bindings}

/-- What has a value is read, and its formula has the value. -/
theorem eq_ok_of_readAndEvaluate {f : Formula} {z : Complex}
    (h : readAndEvaluate dialect bindings s = .ok (f, z)) :
    read dialect s = .ok f ∧ f.evaluate bindings = .ok z := by
  obtain ⟨⟨depth, hdepth, hderives⟩, hz⟩ := readAndEvaluate_eq_ok_iff.1 h
  exact ⟨read_eq_ok_iff.2 ⟨depth, hdepth, hderives⟩,
    (evaluate_eq_ok_iff hderives.readsBack).2 hz⟩

/-- **Where the left text has no value, the joined text has none for the same reason**, whatever
the right one is. -/
theorem readAndEvaluate_joined_of_error (hs : Balanced s) (ht : Balanced t)
    {reason : FormulaError}
    (h : readAndEvaluate dialect bindings (enclosed s) = .error reason) {c : Char}
    {op : BinaryOperator} (hop : BinaryOperator.ofChar? c = some op) :
    readAndEvaluate dialect bindings (joined c s t) = .error reason := by
  unfold readAndEvaluate at h ⊢
  cases hleft : read dialect (enclosed s) with
  | error fault =>
    rw [hleft] at h
    rw [read_joined_of_fault hs hleft]
    exact h
  | ok f =>
    -- the formula of the left text is complete, and has no value
    have hvalue : f.evaluate bindings = .error reason := by
      rw [hleft] at h
      simp only at h
      split at h
      · next reason' hreason => rw [hreason, Except.error.inj h]
      · simp at h
    cases hright : read dialect (enclosed t) with
    | ok g =>
      have hbinary : evaluate bindings (.binary op f g) = .error reason := by
        rw [evaluate_binary, hvalue]
        rfl
      rw [read_joined hs ht hleft hright hop]
      simp only [hbinary]
    | error fault =>
      obtain ⟨fault', hfault⟩ := exists_fault_of_joined hs ht hleft hright op
      rw [hfault c hop, Fault.after]
      simp only [check, hvalue]

/-- **Where both texts have values, the joined text has the operation on them.** -/
theorem readAndEvaluate_joined (hs : Balanced s) (ht : Balanced t) {f g : Formula}
    {z w : Complex} (hleft : readAndEvaluate dialect bindings (enclosed s) = .ok (f, z))
    (hright : readAndEvaluate dialect bindings (enclosed t) = .ok (g, w)) {c : Char}
    {op : BinaryOperator} (hop : BinaryOperator.ofChar? c = some op) :
    readAndEvaluate dialect bindings (joined c s t)
      = ((op.apply z w).mapError .undefined).map fun v => (.binary op f g, v) := by
  obtain ⟨hf, hz⟩ := eq_ok_of_readAndEvaluate hleft
  obtain ⟨hg, hw⟩ := eq_ok_of_readAndEvaluate hright
  have hvalue : evaluate bindings (.binary op f g)
      = (op.apply z w).mapError .undefined := by
    rw [evaluate_binary, hz, hw]
    rfl
  unfold readAndEvaluate
  rw [read_joined hs ht hf hg hop]
  simp only [hvalue]
  cases op.apply z w <;> rfl

end Formula

/-! ## Outcomes -/

/-- A text in parentheses. -/
def enclosedText (text : String) : String := "(" ++ text ++ ")"

/-- Two texts in parentheses with an operator between them. -/
def joinedText (op : BinaryOperator) (left right : String) : String :=
  enclosedText left ++ String.ofList [op.symbol] ++ enclosedText right

/-- The characters of a joined text. -/
theorem toList_joinedText (op : BinaryOperator) (left right : String) :
    (joinedText op left right).toList = joined op.symbol left.toList right.toList := by
  rw [joinedText, String.toList_append, String.toList_append, enclosedText, enclosedText,
    toList_enclosed, toList_enclosed, String.toList_ofList, joined, List.append_assoc]
  rfl

/-- An operator is spelled by its symbol. -/
theorem BinaryOperator.ofChar?_symbol (op : BinaryOperator) : ofChar? op.symbol = some op := by
  cases op <;> rfl

namespace Calculator

/-- **What formulas in parentheses have together.** Of two texts whose parentheses are balanced,
each in parentheses, neither sees the other. If both have values, the text that joins them by an
operator has the operator above their trees and the operation on their values, or the reason why
it is undefined. Where products are implied, nothing between them is a product. If the left one
has no value, the joined text has none for the same reason. -/
theorem outcome_joined {c : Calculator} {left right : String} (hleft : Balanced left.toList)
    (hright : Balanced right.toList) (bindings : Bindings) :
    (∀ op t u z w, c.outcome bindings (enclosedText left) = .ok (some t, some z) →
      c.outcome bindings (enclosedText right) = .ok (some u, some w) →
      c.outcome bindings (joinedText op left right)
        = match op.apply z w with
          | .ok v => .ok (some (.binary op t u), some v)
          | .error reason => .error (.undefined reason)) ∧
    (c.dialect.impliedProducts = true →
      c.outcome bindings (enclosedText left ++ enclosedText right)
        = c.outcome bindings (joinedText .mul left right)) ∧
    ∀ op reason, c.outcome bindings (enclosedText left) = .error reason →
      c.outcome bindings (joinedText op left right) = .error reason := by
  have hs := (balanced_normalChars c.dialect left.toList).2 hleft
  have ht := (balanced_normalChars c.dialect right.toList).2 hright
  have henclosed : ∀ text : String, c.outcome bindings (enclosedText text)
      = (Formula.readAndEvaluate c.dialect bindings
          (enclosed (normalChars c.dialect text.toList))).map
            fun result => (some result.1.tree, some result.2) := by
    intro text
    rw [outcome_eq, enclosedText, toList_enclosed, normalChars_enclosed]
  have hjoined : ∀ op : BinaryOperator, c.outcome bindings (joinedText op left right)
      = (Formula.readAndEvaluate c.dialect bindings (joined op.symbol
          (normalChars c.dialect left.toList) (normalChars c.dialect right.toList))).map
            fun result => (some result.1.tree, some result.2) := by
    intro op
    rw [outcome_eq, toList_joinedText, normalChars_joined c.dialect op.ofChar?_symbol]
  refine ⟨?_, ?_, ?_⟩
  · intro op t u z w hl hr
    rw [henclosed, map_eq_ok_iff] at hl hr
    obtain ⟨⟨f, z⟩, hl, hlv⟩ := hl
    obtain ⟨⟨g, w⟩, hr, hrv⟩ := hr
    simp only [Prod.mk.injEq, Option.some.injEq] at hlv hrv
    obtain ⟨rfl, rfl⟩ := hlv
    obtain ⟨rfl, rfl⟩ := hrv
    rw [hjoined, Formula.readAndEvaluate_joined hs ht hl hr op.ofChar?_symbol]
    cases op.apply z w with
    | error reason => rfl
    | ok v =>
      simp only [Except.mapError, Except.map, Formula.tree_binary]
  · intro himplied
    have htext : (enclosedText left ++ enclosedText right).toList
        = enclosed left.toList ++ enclosed right.toList := by
      rw [String.toList_append, enclosedText, enclosedText, toList_enclosed, toList_enclosed]
    rw [hjoined, outcome_eq, htext, normalChars_juxtaposed himplied, Formula.readAndEvaluate,
      Formula.readAndEvaluate,
      Formula.read_joined_congr hs ht rfl (BinaryOperator.ofChar?_symbol .mul)]
  · intro op reason hl
    rw [henclosed, map_eq_error_iff] at hl
    rw [hjoined, map_eq_error_iff]
    exact Formula.readAndEvaluate_joined_of_error hs ht hl op.ofChar?_symbol

/-- A literal and a difference, joined in some ways. -/
theorem outcome_joined_difference :
    outcome {} (.ofList [("x", ⟨3, 0⟩)]) (joinedText .mul "1+2i" "(x)-1")
        = .ok (some (.binary .mul (.leaf "1+2i") (.binary .sub (.leaf "x") (.leaf "1"))),
            some ⟨2, 4⟩) ∧
      outcome {} (.ofList [("x", ⟨3, 0⟩)]) (enclosedText "1+2i" ++ enclosedText "(x)-1")
        = .ok (some (.binary .mul (.leaf "1+2i") (.binary .sub (.leaf "x") (.leaf "1"))),
            some ⟨2, 4⟩) ∧
      outcome {} (.ofList [("x", ⟨3, 0⟩)]) (joinedText .div "1+2i" "(x)-3")
        = .error (.undefined .divisionByZero) ∧
      outcome {} (.ofList [("x", ⟨3, 0⟩)]) (joinedText .add "2*y" "(x)-1")
        = .error (.unknownVariable "y") := by
  obtain ⟨hliteral, hdifference⟩ :
      outcome {} (.ofList [("x", ⟨3, 0⟩)]) (enclosedText "1+2i")
          = .ok (some (.leaf "1+2i"), some ⟨1, 2⟩) ∧
        outcome {} (.ofList [("x", ⟨3, 0⟩)]) (enclosedText "(x)-1")
          = .ok (some (.binary .sub (.leaf "x") (.leaf "1")), some ⟨2, 0⟩) := by
    decide +kernel
  obtain ⟨hzero, hunknown⟩ :
      outcome {} (.ofList [("x", ⟨3, 0⟩)]) (enclosedText "(x)-3")
          = .ok (some (.binary .sub (.leaf "x") (.leaf "3")), some ⟨0, 0⟩) ∧
        outcome {} (.ofList [("x", ⟨3, 0⟩)]) (enclosedText "2*y")
          = .error (.unknownVariable "y") := by
    decide +kernel
  have hbalanced : ∀ c : Char, c ≠ '(' → c ≠ ')' → Balanced ['(', 'x', ')', '-', c] := by
    intro c hopen hclose
    have hx : Balanced ['x'] := .of_not_mem (by decide) (by decide)
    have hend : Balanced [c] := .cons hopen hclose (.of_not_mem (by decide) (by decide))
    exact hx.enclose.append (hend.cons (by decide) (by decide))
  have hone : Balanced "(x)-1".toList := hbalanced '1' (by decide) (by decide)
  have hthree : Balanced "(x)-3".toList := hbalanced '3' (by decide) (by decide)
  obtain ⟨hvalue, himplied, -⟩ :=
    @outcome_joined {} "1+2i" "(x)-1" (.of_not_mem (by decide) (by decide)) hone
      (.ofList [("x", ⟨3, 0⟩)])
  obtain ⟨hundefined, -, -⟩ :=
    @outcome_joined {} "1+2i" "(x)-3" (.of_not_mem (by decide) (by decide)) hthree
      (.ofList [("x", ⟨3, 0⟩)])
  obtain ⟨-, -, hfault⟩ :=
    @outcome_joined {} "2*y" "(x)-1" (.of_not_mem (by decide) (by decide)) hone
      (.ofList [("x", ⟨3, 0⟩)])
  have hproduct := hvalue .mul _ _ _ _ hliteral hdifference
  have hquotient := hundefined .div _ _ _ _ hliteral hzero
  have happly : BinaryOperator.mul.apply ⟨1, 2⟩ ⟨2, 0⟩ = .ok ⟨2, 4⟩ ∧
      BinaryOperator.div.apply ⟨1, 2⟩ ⟨0, 0⟩ = .error .divisionByZero := by
    decide +kernel
  rw [happly.1] at hproduct
  rw [happly.2] at hquotient
  exact ⟨hproduct, (himplied rfl).trans hproduct, hquotient, hfault .add _ hunknown⟩

end Calculator

end ComplexFormula
