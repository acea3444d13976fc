/-
# What is derived is read

A derivation is found by the readers, unless what follows it could extend it or it is nested
too deep.

* `Precedence.Follows` : what may follow a symbol without extending it;
* `read_of_derives` : a derivation that nothing extends is read;
* `Derives.unique` : a whole text has at most one derivation.
-/
import ComplexFormula.Proofs.Grammar.Outcome

namespace ComplexFormula

open Reader

/-! ## Steps of a chain -/

section

variable {operator? : Char → Option BinaryOperator} {operand : Reader} {left : Formula} {c : Char}
  {s : List Char}

/-- A chain ends before what is no operator of it. -/
theorem Reader.chainFrom_of_none (hop : operator? c = none) :
    chainFrom operator? operand left (c :: s) = .ok (left, c :: s) := by
  rw [chainFrom, hop]

/-- A chain goes on behind an operand. -/
theorem Reader.chainFrom_of_operand {op : BinaryOperator} (hop : operator? c = some op)
    {right : Formula} {rest : List Char} (hright : operand.read s = .ok (right, rest)) :
    chainFrom operator? operand left (c :: s)
      = chainFrom operator? operand (.binary op left right) rest := by
  rw [chainFrom, hop]
  simp only
  split <;> simp_all

/-- A chain breaks off where an operand does. -/
theorem Reader.chainFrom_of_fault {op : BinaryOperator} (hop : operator? c = some op)
    {fault : Fault} (hright : operand.read s = .error fault) :
    chainFrom operator? operand left (c :: s) = .error (fault.after left) := by
  rw [chainFrom, hop]
  simp only
  split <;> simp_all

end

namespace Precedence

/-! ## What may follow a symbol -/

/-- A text may follow a symbol if it begins with no operator that extends it: only looser
ones. -/
def Follows (X : Precedence) (s : List Char) : Prop :=
  ∀ c ∈ s.head?, ∀ op, BinaryOperator.ofChar? c = some op → op.precedence.rank < X.rank

/-- What follows a symbol also follows its operands. -/
theorem Follows.tighter {X : Precedence} {s : List Char} (h : X.Follows s) :
    X.tighter.Follows s := by
  intro c hc op hop
  have hlt := h c hc op hop
  have hle : X.rank ≤ X.tighter.rank := by cases X <;> decide
  omega

/-- Anything may follow a sign and a primary. -/
theorem follows_of_rank {X : Precedence} (hX : 3 ≤ X.rank) (s : List Char) : X.Follows s := by
  intro c _ op _
  have : op.precedence.rank < 3 := by cases op <;> decide
  omega

/-- The end of a text follows any symbol. -/
theorem follows_nil (X : Precedence) : X.Follows [] := by
  intro c hc
  simp at hc

/-- A closing parenthesis follows any symbol. -/
theorem follows_close (X : Precedence) (s : List Char) : X.Follows (')' :: s) := by
  intro c hc op hop
  obtain rfl : ')' = c := by simpa using hc
  exact absurd rfl (BinaryOperator.ne_close_of_ofChar? hop)

/-- The operators of a chain follow its operands. -/
theorem follows_of_operator {X : Precedence} {c : Char} {op : BinaryOperator} (s : List Char)
    (hop : BinaryOperator.ofChar? c = some op) (hX : op.precedence = X) :
    X.tighter.Follows (c :: s) := by
  intro c' hc' op' hop'
  obtain rfl : c = c' := by simpa using hc'
  obtain rfl : op = op' := by
    rw [hop] at hop'
    exact Option.some.inj hop'
  subst hX
  cases op <;> decide

/-! ## The rest of a chain -/

/-- How a symbol is read on after its left part. -/
def resume (p : Reader) (X : Precedence) (left : Formula) (s : List Char) : Reading :=
  if X.rank < 3 then chainFrom X.operator? (X.tighter.reader p) left s else .ok (left, s)

/-- What follows a symbol leaves it as it is. -/
theorem resume_of_follows {X : Precedence} {s : List Char} (h : X.Follows s) (p : Reader)
    (left : Formula) : X.resume p left s = .ok (left, s) := by
  unfold resume
  split
  · cases s with
    | nil => rw [chainFrom]
    | cons c s =>
      have hnone : X.operator? c = none := by
        cases hop : X.operator? c with
        | none => rfl
        | some op =>
          obtain ⟨hchar, hX⟩ := operator?_eq_some_iff.1 hop
          have hlt := h c rfl op hchar
          rw [hX] at hlt
          exact absurd hlt (Nat.lt_irrefl _)
      exact chainFrom_of_none hnone
  · rfl

/-- An operator of the chain takes one more operand. -/
theorem resume_operator {X : Precedence} {c : Char} {op : BinaryOperator}
    (hop : BinaryOperator.ofChar? c = some op) (hX : op.precedence = X) {p : Reader}
    {left right : Formula} {s rest : List Char}
    (hright : (X.tighter.reader p).read s = .ok (right, rest)) :
    X.resume p left (c :: s) = X.resume p (.binary op left right) rest := by
  have hrank : X.rank < 3 := by
    subst hX
    cases op <;> decide
  unfold resume
  rw [if_pos hrank, if_pos hrank]
  exact chainFrom_of_operand (operator?_eq_some_iff.2 ⟨hop, hX⟩) hright

/-- A chain breaks off where the operand after its operator does. -/
theorem resume_operator_of_fault {X : Precedence} {c : Char} {op : BinaryOperator}
    (hop : BinaryOperator.ofChar? c = some op) (hX : op.precedence = X) {p : Reader}
    {left : Formula} {s : List Char} {fault : Fault}
    (hright : (X.tighter.reader p).read s = .error fault) :
    X.resume p left (c :: s) = .error (fault.after left) := by
  have hrank : X.rank < 3 := by
    subst hX
    cases op <;> decide
  unfold resume
  rw [if_pos hrank]
  exact chainFrom_of_fault (operator?_eq_some_iff.2 ⟨hop, hX⟩) hright

end Precedence

/-! ## Where primaries begin -/

/-- No primary begins with a sign. -/
theorem Derives.head_ne_minus {dialect : Dialect} {X : Precedence} {depth : Nat}
    {f : Formula} {s rest : List Char} (h : Derives dialect X depth f s rest)
    (hX : X = .primary) : s.head? ≠ some '-' := by
  cases h with
  | operand hne h => exact absurd hX hne
  | @chain _ op _ _ _ _ _ _ _ _ hop =>
    subst hX
    cases op <;> exact absurd hop (by decide)
  | negation h => exact absurd hX (by decide)
  | root h => exact fun hhead => absurd (Option.some.inj hhead) (by decide)
  | literal h => exact fun hhead => absurd (Option.some.inj hhead) (by decide)
  | group hliteral h => exact fun hhead => absurd (Option.some.inj hhead) (by decide)
  | call hc hread h =>
    intro hhead
    rw [Option.some.inj hhead] at hc
    exact absurd hc (by decide)
  | name hc hread =>
    intro hhead
    rw [Option.some.inj hhead] at hc
    exact absurd hc (by decide)
  | @numeral run rest n hne hrun hmaximal hread =>
    intro hhead
    cases run with
    | nil => exact hne rfl
    | cons c run =>
      have hc := hrun c List.mem_cons_self
      rw [Option.some.inj hhead] at hc
      exact absurd hc (by decide)

section

variable {page : Page} {nested : Nested}

/-- At a root sign a root is read. -/
theorem readPrimary_root (s : List Char) :
    readPrimary page nested (rootSign :: s) = readRoot nested s := by
  rw [readPrimary, if_pos rfl]

/-- At a parenthesis a group is read. -/
theorem readPrimary_open (s : List Char) :
    readPrimary page nested ('(' :: s) = readGroup page nested s := by
  rw [readPrimary, if_neg (by decide), if_pos rfl]

/-- At a letter an identifier is read. -/
theorem readPrimary_letter {c : Char} (hc : isLetter c = true) (s : List Char) :
    readPrimary page nested (c :: s) = readIdentifier page nested (c :: s) := by
  have hroot : c ≠ rootSign := by
    rintro rfl
    rw [isLetter_rootSign] at hc
    exact absurd hc Bool.false_ne_true
  have hopen : c ≠ '(' := by
    rintro rfl
    exact absurd hc (by decide)
  rw [readPrimary, if_neg hroot, if_neg hopen, if_pos hc]

/-- At a digit or a point a numeral is read. -/
theorem readPrimary_numeral {c : Char} (hc : isNumeralChar c = true) (s : List Char) :
    readPrimary page nested (c :: s) = readNumeral page (c :: s) := by
  have hroot : c ≠ rootSign := by
    rintro rfl
    exact absurd hc (by decide)
  have hopen : c ≠ '(' := by
    rintro rfl
    exact absurd hc (by decide)
  rw [readPrimary, if_neg hroot, if_neg hopen, isLetter_of_isNumeralChar hc]
  rfl

/-- A sign is read before a primary. -/
theorem read_signed_minus {p : Reader} {f : Formula} {s rest : List Char}
    (h : p.read s = .ok (f, rest)) :
    (signed p).read ('-' :: s) = .ok (.unary .negation f, rest) := by
  simp only [signed, h]

/-- Without a sign, a primary is read. -/
theorem read_signed_of_ne (p : Reader) {s : List Char} (h : s.head? ≠ some '-') :
    (signed p).read s = p.read s := by
  simp only [signed]
  split
  · exact absurd rfl h
  · rfl

/-- Where an operand breaks off, so does the symbol that begins with it. -/
theorem read_of_operand_fault {p : Reader} {X : Precedence} (hX : X ≠ .primary) {s : List Char}
    (hsign : X = .signed → s.head? ≠ some '-') {fault : Fault}
    (h : (X.tighter.reader p).read s = .error fault) :
    (X.reader p).read s = .error fault := by
  by_cases hchain : X.rank < 3
  · rw [Precedence.reader_eq_chain hchain]
    simp only [chain, h]
  · obtain rfl : X = .signed := by cases X <;> simp_all [Precedence.rank]
    rw [← h]
    exact read_signed_of_ne p (hsign rfl)

/-- Where a tighter symbol breaks off, so do the looser ones that begin with it. -/
theorem read_of_tighter_fault {p : Reader} {X Y : Precedence} (hXY : X.rank ≤ Y.rank)
    {s : List Char} (hsign : s.head? ≠ some '-') {fault : Fault}
    (h : (Y.reader p).read s = .error fault) : (X.reader p).read s = .error fault :=
  @Precedence.of_tighter (fun X => (X.reader p).read s = .error fault) X Y hXY
    (fun _ hX hoperand => read_of_operand_fault hX (fun _ => hsign) hoperand) h

/-- A formula that ends at its parenthesis is read with it. -/
theorem readEnclosed_of_read {inner : Reader} {f : Formula} {inside rest : List Char}
    (h : (sum inner).read inside = .ok (f, ')' :: rest)) :
    readEnclosed page (.ok inner) inside = .ok (f, rest) := by
  simp only [readEnclosed, h, close]

/-- A group that spells a literal is read as one. -/
theorem readGroup_of_literal {inner : Reader} {content : List Char} {value : Complex}
    (h : Complex.ofLiteral (literalText content) = .ok value) (rest : List Char) :
    readGroup page (.ok inner) (content ++ ')' :: rest)
      = .ok (.leaf (.constant (literalText content) value), rest) := by
  have hindex := closingIndex?_eq_some_iff.2
    ⟨content, rest, rfl, Balanced.of_literal h, rfl⟩
  have hgroup : groupLiteral? content = some (literalText content, value) := by
    rcases groupLiteral?_eq content with ⟨value', hvalue', hgroup⟩ | ⟨hliteral, -⟩
    · rw [h] at hvalue'
      rw [hgroup, Except.ok.inj hvalue']
    · exact absurd h (hliteral value)
  rw [readGroup, hindex]
  simp only [List.take_left, hgroup]
  rw [drop_content]

/-- Any other group is read as the formula that it encloses. -/
theorem readGroup_of_read {inner : Reader} {content : List Char}
    (hcontent : Balanced content)
    (hliteral : ∀ value, Complex.ofLiteral (literalText content) ≠ .ok value)
    {f : Formula} {rest : List Char}
    (h : (sum inner).read (content ++ ')' :: rest) = .ok (f, ')' :: rest)) :
    readGroup page (.ok inner) (content ++ ')' :: rest) = .ok (f, rest) := by
  have hindex := closingIndex?_eq_some_iff.2 ⟨content, rest, rfl, hcontent, rfl⟩
  have hgroup : groupLiteral? content = none := by
    rcases groupLiteral?_eq content with ⟨value, hvalue, -⟩ | ⟨-, hgroup⟩
    · exact absurd hvalue (hliteral value)
    · exact hgroup
  rw [readGroup, hindex]
  simp only [List.take_left, hgroup]
  exact readEnclosed_of_read h

/-- A run of digits and points ends where it does not go on. -/
theorem span_isNumeralChar_append {run rest : List Char}
    (hrun : ∀ c ∈ run, isNumeralChar c = true)
    (hmaximal : ∀ c ∈ rest.head?, isNumeralChar c = false) :
    (run ++ rest).takeWhile isNumeralChar = run ∧
      (run ++ rest).dropWhile isNumeralChar = rest := by
  have htail : rest.takeWhile isNumeralChar = [] ∧ rest.dropWhile isNumeralChar = rest := by
    cases rest with
    | nil => exact ⟨rfl, rfl⟩
    | cons c rest =>
      have hc : ¬ isNumeralChar c = true := by
        rw [hmaximal c rfl]
        exact Bool.false_ne_true
      exact ⟨List.takeWhile_cons_of_neg hc, List.dropWhile_cons_of_neg hc⟩
  constructor
  · rw [List.takeWhile_append_of_pos hrun, htail.1, List.append_nil]
  · rw [List.dropWhile_append_of_pos hrun, htail.2]

/-- A maximal run of digits and points is read as a numeral. -/
theorem readNumeral_of_run {run rest : List Char} {n : Numeral} (hne : run ≠ [])
    (hrun : ∀ c ∈ run, isNumeralChar c = true)
    (hmaximal : ∀ c ∈ rest.head?, isNumeralChar c = false)
    (hread : Numeral.read? run = some n) :
    readNumeral page (run ++ rest)
      = .ok (.leaf (.constant (String.ofList run) (.ofReal n.toFloat)), rest) := by
  obtain ⟨htake, hdrop⟩ := span_isNumeralChar_append hrun hmaximal
  have hempty : run.isEmpty = false := by simpa using hne
  simp only [readNumeral, htake, hdrop, hempty, hread]
  rfl

end

/-! ## What is derived is read -/

/-- The readers follow a derivation up to its end, and then go on with the chain. -/
theorem read_eq_resume_of_derives {page : Page} {levels : Nat} {X : Precedence} {depth : Nat}
    {f : Formula} {s rest : List Char} (h : Derives page.dialect X depth f s rest)
    (hdepth : depth ≤ levels) (hfollows : X.tighter.Follows rest) :
    (X.reader (primary page levels)).read s = X.resume (primary page levels) f rest := by
  -- a left part is followed by an operator that extends it, so the readers go on there
  induction h generalizing levels with
  | @operand X depth f s rest hX h ih =>
    have hs := ih hdepth hfollows.tighter
    rw [Precedence.resume_of_follows hfollows] at hs
    by_cases hchain : X.rank < 3
    · rw [Precedence.reader_eq_chain hchain, Precedence.resume, if_pos hchain]
      simp only [chain, hs]
    · obtain rfl : X = .signed := by cases X <;> simp_all [Precedence.rank]
      rw [Precedence.resume, if_neg hchain, ← hs]
      exact read_signed_of_ne _ (h.head_ne_minus rfl)
  | @chain X op c depth depth' f g s s' rest hX hleft hop hright ihl ihr =>
    obtain ⟨hdepth, hdepth'⟩ := Nat.max_le.1 hdepth
    rw [ihl hdepth (Precedence.follows_of_operator s' hop hX)]
    refine Precedence.resume_operator hop hX ?_
    rw [ihr hdepth' hfollows.tighter]
    exact Precedence.resume_of_follows hfollows _ _
  | @negation depth f s rest h ih => exact read_signed_minus (ih hdepth hfollows)
  | @root depth f s rest h ih =>
    -- there is a level left for the root
    obtain ⟨n, rfl⟩ : ∃ n, levels = n + 1 := ⟨levels - 1, by omega⟩
    have hs := ih (Nat.le_of_succ_le_succ hdepth) (Precedence.follows_of_rank (by decide) rest)
    show (primary page (n + 1)).read _ = _
    rw [read_primary, readPrimary_root, nestedReader, readRoot]
    change (signed (primary page n)).read s = _ at hs
    simp only [hs]
    rfl
  | @literal content rest value h =>
    obtain ⟨n, rfl⟩ : ∃ n, levels = n + 1 := ⟨levels - 1, by omega⟩
    show (primary page (n + 1)).read _ = _
    rw [read_primary, List.cons_append, readPrimary_open, nestedReader]
    exact readGroup_of_literal h rest
  | @group depth f content rest hliteral h ih =>
    obtain ⟨n, rfl⟩ : ∃ n, levels = n + 1 := ⟨levels - 1, by omega⟩
    have hs := ih (Nat.le_of_succ_le_succ hdepth) (Precedence.follows_close _ rest)
    rw [Precedence.resume_of_follows (Precedence.follows_close _ rest)] at hs
    have hcontent : Balanced content := by
      obtain ⟨p, hp, -, hbalanced⟩ := h.exists_balanced
      rwa [List.append_cancel_right hp]
    show (primary page (n + 1)).read _ = _
    rw [read_primary, List.cons_append, readPrimary_open, nestedReader]
    exact readGroup_of_read hcontent hliteral hs
  | @call depth function c f s s' rest hc hread h ih =>
    obtain ⟨n, rfl⟩ : ∃ n, levels = n + 1 := ⟨levels - 1, by omega⟩
    have hs := ih (Nat.le_of_succ_le_succ hdepth) (Precedence.follows_close _ rest)
    rw [Precedence.resume_of_follows (Precedence.follows_close _ rest)] at hs
    show (primary page (n + 1)).read _ = _
    rw [read_primary, readPrimary_letter hc, nestedReader, readIdentifier, hread]
    simp only [List.tail_cons]
    have henclosed : readEnclosed page (.ok (primary page n)) s' = .ok (f, rest) :=
      readEnclosed_of_read hs
    rw [henclosed]
    rfl
  | @name c s rest letters hc hread =>
    show (primary page levels).read _ = _
    rw [read_primary, readPrimary_letter hc, readIdentifier, hread]
    rfl
  | @numeral run rest n hne hrun hmaximal hread =>
    show (primary page levels).read _ = _
    obtain ⟨c, tail, rfl⟩ := List.exists_cons_of_ne_nil hne
    rw [read_primary, List.cons_append, readPrimary_numeral (hrun c List.mem_cons_self),
      ← List.cons_append]
    exact readNumeral_of_run hne hrun hmaximal hread

/-- **A derivation that nothing extends is read.** -/
theorem read_of_derives {page : Page} {levels : Nat} {X : Precedence} {depth : Nat}
    {f : Formula} {s rest : List Char} (h : Derives page.dialect X depth f s rest)
    (hdepth : depth ≤ levels) (hfollows : X.Follows rest) :
    (X.reader (primary page levels)).read s = .ok (f, rest) := by
  rw [read_eq_resume_of_derives h hdepth hfollows.tighter]
  exact Precedence.resume_of_follows hfollows _ _

/-- **A whole text has at most one derivation.** -/
theorem Derives.unique {dialect : Dialect} {X : Precedence} {depth depth' : Nat}
    {f g : Formula} {s : List Char} (hf : Derives dialect X depth f s [])
    (hg : Derives dialect X depth' g s []) : f = g := by
  -- with levels enough for both derivations, the readers find the one and the other
  let page := Page.ofText dialect s
  have hread : (X.reader (primary page (max depth depth'))).read s = .ok (f, []) :=
    read_of_derives hf (Nat.le_max_left depth depth') (Precedence.follows_nil X)
  have hread' : (X.reader (primary page (max depth depth'))).read s = .ok (g, []) :=
    read_of_derives hg (Nat.le_max_right depth depth') (Precedence.follows_nil X)
  rw [hread] at hread'
  simpa using hread'

/-! ## Whole texts -/

/-- The formula of a text is the one that the grammar derives from it. -/
theorem Formula.read_eq_ok_iff {dialect : Dialect} {s : List Char} {f : Formula} :
    Formula.read dialect s = .ok f ↔
      ∃ depth, depth ≤ dialect.nestingLimit ∧ Derives dialect .sum depth f s [] := by
  let page := Page.ofText dialect s
  constructor
  · intro h
    unfold Formula.read at h
    simp only at h
    split at h
    · simp at h
    · next g hread =>
      obtain rfl := Except.ok.inj h
      exact @exists_derives_of_read page _ .sum _ _ _ hread
    · simp at h
  · rintro ⟨depth, hdepth, hderives⟩
    have hread : (Formula.reader page).read s = .ok (f, []) :=
      read_of_derives hderives hdepth (Precedence.follows_nil .sum)
    simp only [Formula.read]
    rw [hread]

/-- Where the formula of a text is not found, reading breaks off or something is left. -/
theorem Formula.fails_of_read_eq_error {dialect : Dialect} {s : List Char} {fault : Fault}
    (h : Formula.read dialect s = .error fault) :
    Fails (Page.ofText dialect s) .sum dialect.nestingLimit fault s ∨
      ∃ depth f rest, depth ≤ dialect.nestingLimit ∧ Derives dialect .sum depth f s rest ∧
        rest ≠ [] ∧ fault = ⟨[f], .unexpectedText ((Page.ofText dialect s).position rest)
          (String.ofList rest)⟩ := by
  let page := Page.ofText dialect s
  have hexplained : Explained page .sum dialect.nestingLimit s ((Formula.reader page).read s) :=
    explained_read page dialect.nestingLimit .sum s
  unfold Formula.read at h
  simp only at h
  split at h
  · next fault' hread =>
    obtain rfl := Except.error.inj h
    rw [hread] at hexplained
    exact Or.inl hexplained
  · simp at h
  · next f rest hne hread =>
    obtain rfl := Except.error.inj h
    rw [hread] at hexplained
    obtain ⟨depth, hdepth, hderives⟩ := hexplained
    refine Or.inr ⟨depth, f, rest, hdepth, hderives, ?_, rfl⟩
    rintro rfl
    exact hne rfl

end ComplexFormula
