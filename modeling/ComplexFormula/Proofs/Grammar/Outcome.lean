/-
# The outcomes of reading

Whatever a reader gives has an explanation in the grammar: a formula has a derivation, and a
fault has a place in the text where no derivation goes on.

* `Fails` : where and why reading breaks off;
* `Explained` : what the grammar says of an outcome;
* `close_eq_error` : how the end of a group is missed;
* `explained_read` : every outcome of the readers is explained.
-/
import ComplexFormula.Proofs.Grammar

namespace ComplexFormula

open Reader

/-! ## The readers of a page -/

namespace Precedence

/-- The operators whose chains make up a symbol. -/
def operator? (X : Precedence) : Char → Option BinaryOperator :=
  operatorOf fun op => decide (op.precedence = X)

/-- The reader of a symbol, over a reader of primaries. -/
def reader (p : Reader) : Precedence → Reader
  | sum => Reader.sum p
  | product => Reader.product p
  | power => Reader.power p
  | signed => Reader.signed p
  | primary => p

/-- An operator of a symbol is spelled by a character and has its precedence. -/
theorem operator?_eq_some_iff {X : Precedence} {c : Char} {op : BinaryOperator} :
    X.operator? c = some op ↔ BinaryOperator.ofChar? c = some op ∧ op.precedence = X := by
  rw [operator?, operatorOf, Option.filter_eq_some_iff, decide_eq_true_iff]

/-- Sums, products and powers are chains. -/
theorem reader_eq_chain {X : Precedence} (hX : X.rank < 3) (p : Reader) :
    X.reader p = chain X.operator? (X.tighter.reader p) := by
  have hsum : BinaryOperator.isAdditive = fun op => decide (op.precedence = sum) := by
    funext op
    cases op <;> rfl
  have hproduct :
      BinaryOperator.isMultiplicative = fun op => decide (op.precedence = product) := by
    funext op
    cases op <;> rfl
  have hpower : (fun op : BinaryOperator => op == .pow)
      = fun op => decide (op.precedence = power) := by
    funext op
    cases op <;> rfl
  cases X with
  | sum => rw [reader, Reader.sum, hsum]; rfl
  | product => rw [reader, Reader.product, hproduct]; rfl
  | power => rw [reader, Reader.power, hpower]; rfl
  | signed => exact absurd hX (by decide)
  | primary => exact absurd hX (by decide)

end Precedence

/-- The reader of what one more group, call or root may hold. -/
def nestedReader (page : Page) : Nat → Nested
  | 0 => .error (.nestedTooDeep page.dialect.nestingLimit)
  | levels + 1 => .ok (primary page levels)

/-- Primaries are read with the reader of the next level. -/
theorem read_primary (page : Page) (levels : Nat) (s : List Char) :
    (primary page levels).read s = readPrimary page (nestedReader page levels) s := by
  cases levels <;> rfl

/-! ## Faults -/

/-- `Fails page X levels fault s`: reading the symbol `X` at `s` breaks off with a fault,
when `levels` more groups, calls and roots may be opened. -/
inductive Fails (page : Page) : Precedence → Nat → Fault → List Char → Prop
  /-- The first operand breaks off. -/
  | operand {X : Precedence} {levels : Nat} {fault : Fault} {s : List Char}
      (hX : X ≠ .primary) (hsign : X = .signed → s.head? ≠ some '-')
      (h : Fails page X.tighter levels fault s) : Fails page X levels fault s
  /-- An operand breaks off after an operator. -/
  | chain {X : Precedence} {op : BinaryOperator} {c : Char} {depth levels : Nat}
      {f : Formula} {fault : Fault} {s s' : List Char} (hX : op.precedence = X)
      (hleft : Derives page.dialect X depth f s (c :: s')) (hdepth : depth ≤ levels)
      (hop : BinaryOperator.ofChar? c = some op)
      (hright : Fails page X.tighter levels fault s') :
      Fails page X levels (fault.after f) s
  /-- The primary after a sign breaks off. -/
  | negation {levels : Nat} {fault : Fault} {s : List Char}
      (h : Fails page .primary levels fault s) : Fails page .signed levels fault ('-' :: s)
  /-- The operand of a root breaks off. -/
  | root {levels : Nat} {fault : Fault} {s : List Char}
      (h : Fails page .signed levels fault s) :
      Fails page .primary (levels + 1) fault (rootSign :: s)
  /-- No more root may be opened. -/
  | rootTooDeep {s : List Char} :
      Fails page .primary 0 (.ofReason (.nestedTooDeep page.dialect.nestingLimit))
        (rootSign :: s)
  /-- A group is never closed. -/
  | unclosed {levels : Nat} {inside : List Char} (h : closingIndex? inside = none) :
      Fails page .primary levels
        (.ofReason (.unclosedParenthesis (page.position inside - 1))) ('(' :: inside)
  /-- No more group may be opened. -/
  | groupTooDeep {content rest : List Char} (hcontent : Balanced content) :
      Fails page .primary 0 (.ofReason (.nestedTooDeep page.dialect.nestingLimit))
        ('(' :: content ++ ')' :: rest)
  /-- The formula in a group breaks off. -/
  | group {levels : Nat} {fault : Fault} {content rest : List Char}
      (hcontent : Balanced content)
      (hliteral : ∀ value, Complex.ofLiteral (literalText content) ≠ .ok value)
      (h : Fails page .sum levels fault (content ++ ')' :: rest)) :
      Fails page .primary (levels + 1) fault ('(' :: content ++ ')' :: rest)
  /-- The formula in a group ends before the group. -/
  | groupEnd {depth levels : Nat} {f : Formula} {fault : Fault}
      {content rest rest' : List Char} (hcontent : Balanced content)
      (hliteral : ∀ value, Complex.ofLiteral (literalText content) ≠ .ok value)
      (h : Derives page.dialect .sum depth f (content ++ ')' :: rest) rest')
      (hdepth : depth ≤ levels)
      (hclose : close page (content ++ ')' :: rest) f rest' = .error fault) :
      Fails page .primary (levels + 1) fault ('(' :: content ++ ')' :: rest)
  /-- No more call may be opened. -/
  | callTooDeep {function : RealFunction} {c : Char} {s inside : List Char}
      (hc : isLetter c = true)
      (hread : Identifier.read page.dialect (c :: s) = (.call function, '(' :: inside)) :
      Fails page .primary 0 (.ofReason (.nestedTooDeep page.dialect.nestingLimit)) (c :: s)
  /-- The argument of a call breaks off. -/
  | call {function : RealFunction} {levels : Nat} {c : Char} {fault : Fault}
      {s inside : List Char} (hc : isLetter c = true)
      (hread : Identifier.read page.dialect (c :: s) = (.call function, '(' :: inside))
      (h : Fails page .sum levels fault inside) :
      Fails page .primary (levels + 1) fault (c :: s)
  /-- The argument of a call ends before the call. -/
  | callEnd {function : RealFunction} {depth levels : Nat} {c : Char} {f : Formula}
      {fault : Fault} {s inside rest' : List Char} (hc : isLetter c = true)
      (hread : Identifier.read page.dialect (c :: s) = (.call function, '(' :: inside))
      (h : Derives page.dialect .sum depth f inside rest') (hdepth : depth ≤ levels)
      (hclose : close page inside f rest' = .error fault) :
      Fails page .primary (levels + 1) fault (c :: s)
  /-- There is no numeral where an operand should begin. -/
  | numeral {levels : Nat} {fault : Fault} {s : List Char}
      (hroot : s.head? ≠ some rootSign) (hopen : s.head? ≠ some '(')
      (hletter : ∀ c ∈ s.head?, isLetter c = false)
      (h : readNumeral page s = .error fault) : Fails page .primary levels fault s

/-! ## Outcomes -/

/-- What the grammar says of an outcome: a formula is derived within the levels that may be
opened, and a fault has its place. -/
def Explained (page : Page) (X : Precedence) (levels : Nat) (s : List Char) : Reading → Prop
  | .ok (f, rest) => ∃ depth, depth ≤ levels ∧ Derives page.dialect X depth f s rest
  | .error fault => Fails page X levels fault s

section

variable {page : Page} {levels : Nat}

/-- A chain that goes on after its left part. -/
theorem explained_chainFrom {X : Precedence} {operand : Reader}
    (hoperand : ∀ s, Explained page X.tighter levels s (operand.read s)) {left : Formula}
    {s₀ s : List Char} {depth : Nat} (hdepth : depth ≤ levels)
    (hleft : Derives page.dialect X depth left s₀ s) :
    Explained page X levels s₀ (chainFrom X.operator? operand left s) := by
  -- the left part grows with each operand, and stays derived from the same place
  fun_induction chainFrom X.operator? operand left s generalizing depth with
  | case1 left => exact ⟨depth, hdepth, hleft⟩
  | case2 left c tail hop => exact ⟨depth, hdepth, hleft⟩
  | case3 left c tail op hop fault hread =>
    obtain ⟨hchar, hX⟩ := Precedence.operator?_eq_some_iff.1 hop
    have hright := hoperand tail
    rw [hread] at hright
    exact Fails.chain hX hleft hdepth hchar hright
  | case4 left c tail op hop right rest hread ih =>
    obtain ⟨hchar, hX⟩ := Precedence.operator?_eq_some_iff.1 hop
    have hright := hoperand tail
    rw [hread] at hright
    obtain ⟨depth', hdepth', hright⟩ := hright
    exact ih (Nat.max_le.2 ⟨hdepth, hdepth'⟩) (Derives.chain hX hleft hchar hright)

/-- A chain of operands. -/
theorem explained_chain {X : Precedence} (hX : X.rank < 3) {operand : Reader}
    (hoperand : ∀ s, Explained page X.tighter levels s (operand.read s)) (s : List Char) :
    Explained page X levels s ((chain X.operator? operand).read s) := by
  have hprimary : X ≠ .primary := by
    rintro rfl
    exact absurd hX (by decide)
  have hsigned : X ≠ .signed := by
    rintro rfl
    exact absurd hX (by decide)
  have hfirst := hoperand s
  simp only [chain]
  split
  · next fault hread =>
    rw [hread] at hfirst
    exact Fails.operand hprimary (fun h => absurd h hsigned) hfirst
  · next first rest hread =>
    rw [hread] at hfirst
    obtain ⟨depth, hdepth, hfirst⟩ := hfirst
    exact explained_chainFrom hoperand hdepth (Derives.operand hprimary hfirst)

/-- A primary, or a sign and a primary. -/
theorem explained_signed {p : Reader}
    (hp : ∀ s, Explained page .primary levels s (p.read s)) (s : List Char) :
    Explained page .signed levels s ((signed p).read s) := by
  simp only [signed]
  split
  · next tail =>
    have htail := hp tail
    split
    · next fault hread =>
      rw [hread] at htail
      exact Fails.negation htail
    · next f rest hread =>
      rw [hread] at htail
      obtain ⟨depth, hdepth, htail⟩ := htail
      exact ⟨depth, hdepth, Derives.negation htail⟩
  · next hsign =>
    have hs := hp s
    cases hread : p.read s with
    | error fault =>
      rw [hread] at hs
      refine Fails.operand (by decide) (fun _ hhead => ?_) hs
      obtain ⟨tail, rfl⟩ := List.head?_eq_some_iff.1 hhead
      exact hsign tail rfl
    | ok result =>
      rw [hread] at hs
      obtain ⟨depth, hdepth, hs⟩ := hs
      exact ⟨depth, hdepth, Derives.operand (by decide) hs⟩

/-- All symbols, when primaries are explained. -/
theorem explained_reader {p : Reader}
    (hp : ∀ s, Explained page .primary levels s (p.read s)) (X : Precedence) :
    ∀ s, Explained page X levels s ((X.reader p).read s) := by
  -- the symbols in turn, from the tightest to the loosest
  have hsigned := explained_signed hp
  have hpower : ∀ s, Explained page .power levels s ((Precedence.power.reader p).read s) := by
    rw [Precedence.reader_eq_chain (by decide)]
    exact explained_chain (by decide) hsigned
  have hproduct :
      ∀ s, Explained page .product levels s ((Precedence.product.reader p).read s) := by
    rw [Precedence.reader_eq_chain (by decide)]
    exact explained_chain (by decide) hpower
  cases X with
  | sum =>
    rw [Precedence.reader_eq_chain (by decide)]
    exact explained_chain (by decide) hproduct
  | product => exact hproduct
  | power => exact hpower
  | signed => exact hsigned
  | primary => exact hp

/-! ## The outcomes of primaries -/

/-- All outcomes one level further in are explained. -/
def ExplainedWithin (page : Page) (levels : Nat) : Prop :=
  ∀ n, levels = n + 1 → ∀ X s, Explained page X n s ((X.reader (primary page n)).read s)

/-- The end of a group or call, after its formula. -/
theorem close_eq_ok_iff {inside rest rest' : List Char} {f g : Formula} :
    close page inside f rest' = .ok (g, rest) ↔ g = f ∧ rest' = ')' :: rest := by
  unfold close
  split
  · simp [eq_comm]
  · next hclose =>
    constructor
    · intro h
      split at h <;> simp at h
    · rintro ⟨-, rfl⟩
      exact absurd rfl (hclose rest)

/-- A group that is never closed does not end behind its formula. -/
theorem close_of_unclosed {inside rest : List Char} (hhead : rest.head? ≠ some ')')
    (hindex : closingIndex? inside = none) (f : Formula) :
    close page inside f rest
      = .error ⟨[f], .unclosedParenthesis (page.position inside - 1)⟩ := by
  unfold close
  split
  · exact absurd rfl hhead
  · rw [hindex]

/-- Where a group does not end behind its formula, what is left of its content is quoted. -/
theorem close_of_left {q u rest : List Char} (hhead : (u ++ rest).head? ≠ some ')')
    (hindex : closingIndex? (q ++ (u ++ rest)) = some (q ++ u).length) (f : Formula) :
    close page (q ++ (u ++ rest)) f (u ++ rest)
      = .error ⟨[f], .unexpectedText (page.position (u ++ rest)) (String.ofList u)⟩ := by
  have hlength : (q ++ u).length - ((q ++ (u ++ rest)).length - (u ++ rest).length) = u.length := by
    simp only [List.length_append]
    omega
  unfold close
  split
  · next hclose => exact absurd (by rw [hclose]; rfl) hhead
  · rw [hindex]
    simp only [hlength, List.take_left]

/-- **How the end of a group is missed**, behind a formula that takes a balanced text: the group is
never closed, or something is left of its content. -/
theorem close_eq_error {q rest : List Char} {f : Formula} {fault : Fault} (hq : Balanced q)
    (h : close page (q ++ rest) f rest = .error fault) :
    closingIndex? (q ++ rest) = none ∧
        fault = ⟨[f], .unclosedParenthesis (page.position (q ++ rest) - 1)⟩ ∨
      ∃ u back, rest = u ++ ')' :: back ∧ rest.head? ≠ some ')' ∧ Balanced (q ++ u) ∧
        fault = ⟨[f], .unexpectedText (page.position rest) (String.ofList u)⟩ := by
  have hhead : rest.head? ≠ some ')' := by
    intro hclosed
    obtain ⟨back, rfl⟩ := List.head?_eq_some_iff.1 hclosed
    rw [close_eq_ok_iff.2 ⟨rfl, rfl⟩] at h
    simp at h
  cases hindex : closingIndex? (q ++ rest) with
  | none =>
    rw [close_of_unclosed hhead hindex] at h
    exact Or.inl ⟨rfl, (Except.error.inj h).symm⟩
  | some index =>
    obtain ⟨content, back, hs, hcontent, rfl⟩ := closingIndex?_eq_some_iff.1 hindex
    -- what is left stands between the formula and the end of the content
    obtain ⟨u, rfl, rfl, -⟩ := hq.exists_of_append_close hcontent hs
    rw [close_of_left hhead hindex] at h
    exact Or.inr ⟨u, back, rfl, hhead, hcontent, (Except.error.inj h).symm⟩

/-- A group is a literal or not. -/
theorem groupLiteral?_eq (content : List Char) :
    (∃ value, Complex.ofLiteral (literalText content) = .ok value ∧
        groupLiteral? content = some (literalText content, value)) ∨
      ((∀ value, Complex.ofLiteral (literalText content) ≠ .ok value) ∧
        groupLiteral? content = none) := by
  unfold groupLiteral? literalText
  simp only
  split
  · next value hvalue => exact Or.inl ⟨value, hvalue, rfl⟩
  · next reason hreason =>
    refine Or.inr ⟨fun value hvalue => ?_, rfl⟩
    rw [hreason] at hvalue
    simp at hvalue

/-- A root. -/
theorem explained_readRoot (hinner : ExplainedWithin page levels) (s : List Char) :
    Explained page .primary levels (rootSign :: s)
      (readRoot (nestedReader page levels) s) := by
  cases levels with
  | zero => exact Fails.rootTooDeep
  | succ n =>
    have hs := hinner n rfl .signed s
    simp only [readRoot, nestedReader]
    split
    · next fault hread =>
      rw [Precedence.reader, hread] at hs
      exact Fails.root hs
    · next f rest hread =>
      rw [Precedence.reader, hread] at hs
      obtain ⟨depth, hdepth, hs⟩ := hs
      exact ⟨depth + 1, Nat.succ_le_succ hdepth, Derives.root hs⟩

/-- A group. -/
theorem explained_readGroup (hinner : ExplainedWithin page levels) (inside : List Char) :
    Explained page .primary levels ('(' :: inside)
      (readGroup page (nestedReader page levels) inside) := by
  unfold readGroup
  split
  · next hindex => exact Fails.unclosed hindex
  · next index hindex =>
    obtain ⟨content, rest, rfl, hcontent, rfl⟩ := closingIndex?_eq_some_iff.1 hindex
    cases levels with
    | zero => exact Fails.groupTooDeep hcontent
    | succ n =>
      simp only [nestedReader, List.take_left]
      rcases groupLiteral?_eq content with ⟨value, hvalue, hgroup⟩ | ⟨hliteral, hgroup⟩
      · rw [hgroup]
        refine ⟨1, Nat.succ_le_succ (Nat.zero_le n), ?_⟩
        rw [drop_content, ← List.cons_append]
        exact Derives.literal hvalue
      · rw [hgroup]
        have hs := hinner n rfl .sum (content ++ ')' :: rest)
        simp only [readEnclosed]
        split
        · next fault hread =>
          rw [Precedence.reader, hread] at hs
          exact Fails.group hcontent hliteral hs
        · next f rest' hread =>
          rw [Precedence.reader, hread] at hs
          obtain ⟨depth, hdepth, hs⟩ := hs
          cases hclose : close page (content ++ ')' :: rest) f rest' with
          | error fault => exact Fails.groupEnd hcontent hliteral hs hdepth hclose
          | ok result =>
            obtain ⟨g, rest''⟩ := result
            obtain ⟨rfl, rfl⟩ := close_eq_ok_iff.1 hclose
            -- the formula has a balanced text, so it ends where the group does
            obtain ⟨p, hp, -, hbalanced⟩ := hs.exists_balanced
            obtain rfl := hcontent.eq_of_append_close hbalanced hp
            obtain rfl : rest = rest'' := by simpa using hp
            exact ⟨depth + 1, Nat.succ_le_succ hdepth, Derives.group hliteral hs⟩

/-- A call or a name. -/
theorem explained_readIdentifier (hinner : ExplainedWithin page levels) {c : Char}
    (hc : isLetter c = true) (s : List Char) :
    Explained page .primary levels (c :: s)
      (readIdentifier page (nestedReader page levels) (c :: s)) := by
  unfold readIdentifier
  split
  · next letters rest hread => exact ⟨0, Nat.zero_le levels, Derives.name hc hread⟩
  · next function rest hread =>
    obtain ⟨inside, rfl⟩ := Identifier.exists_of_read_call hread
    rw [List.tail_cons]
    cases levels with
    | zero => exact Fails.callTooDeep hc hread
    | succ n =>
      have hs := hinner n rfl .sum inside
      simp only [readEnclosed, nestedReader]
      split
      · next fault hclose =>
        split at hclose
        · next fault' hfault =>
          obtain rfl := Except.error.inj hclose
          rw [Precedence.reader, hfault] at hs
          exact Fails.call hc hread hs
        · next f rest hsum =>
          rw [Precedence.reader, hsum] at hs
          obtain ⟨depth, hdepth, hs⟩ := hs
          exact Fails.callEnd hc hread hs hdepth hclose
      · next f rest hclose =>
        split at hclose
        · simp at hclose
        · next g rest' hsum =>
          rw [Precedence.reader, hsum] at hs
          obtain ⟨depth, hdepth, hs⟩ := hs
          obtain ⟨rfl, rfl⟩ := close_eq_ok_iff.1 hclose
          exact ⟨depth + 1, Nat.succ_le_succ hdepth, Derives.call hc hread hs⟩

/-- Behind the longest run of digits and points stands none of them. -/
theorem isNumeralChar_of_head?_dropWhile (s : List Char) :
    ∀ c ∈ (s.dropWhile isNumeralChar).head?, isNumeralChar c = false := by
  intro c hc
  have := List.head?_dropWhile_not isNumeralChar s
  rw [hc] at this
  exact this

/-- A numeral, where nothing else can begin. -/
theorem explained_readNumeral {s : List Char} (hroot : s.head? ≠ some rootSign)
    (hopen : s.head? ≠ some '(') (hletter : ∀ c ∈ s.head?, isLetter c = false) :
    Explained page .primary levels s (readNumeral page s) := by
  cases hread : readNumeral page s with
  | error fault => exact Fails.numeral hroot hopen hletter hread
  | ok result =>
    unfold readNumeral at hread
    simp only at hread
    split at hread
    · simp at hread
    · next hrun =>
      split at hread
      · next n hn =>
        obtain rfl := Except.ok.inj hread
        have hchars : ∀ c ∈ s.takeWhile isNumeralChar, isNumeralChar c = true :=
          List.all_eq_true.1 List.all_takeWhile
        refine ⟨0, Nat.zero_le levels, ?_⟩
        have hderives := @Derives.numeral page.dialect _ _ n (by simpa using hrun) hchars
          (isNumeralChar_of_head?_dropWhile s) hn
        rwa [List.takeWhile_append_dropWhile] at hderives
      · simp at hread

/-- A primary. -/
theorem explained_readPrimary (hinner : ExplainedWithin page levels) (s : List Char) :
    Explained page .primary levels s
      (readPrimary page (nestedReader page levels) s) := by
  unfold readPrimary
  split
  · exact explained_readNumeral (by simp) (by simp) (by simp)
  · next c tail =>
    split
    · next hroot =>
      rw [hroot]
      exact explained_readRoot hinner tail
    · next hroot =>
      split
      · next hopen =>
        rw [hopen]
        exact explained_readGroup hinner tail
      · next hopen =>
        split
        · next hletter => exact explained_readIdentifier hinner hletter tail
        · next hletter =>
          refine explained_readNumeral (by simpa using hroot) (by simpa using hopen) ?_
          simpa using hletter

end

/-- **Every outcome is explained.** -/
theorem explained_read (page : Page) (levels : Nat) (X : Precedence) (s : List Char) :
    Explained page X levels s ((X.reader (primary page levels)).read s) := by
  induction levels generalizing X s with
  | zero =>
    refine explained_reader (fun s => ?_) X s
    rw [read_primary]
    exact explained_readPrimary (fun n hn => absurd hn (Nat.succ_ne_zero n).symm) s
  | succ levels ih =>
    refine explained_reader (fun s => ?_) X s
    rw [read_primary]
    refine explained_readPrimary (fun n hn X s => ?_) s
    obtain rfl := Nat.succ.inj hn
    exact ih X s

/-- What is read is derived, within the levels that may be opened. -/
theorem exists_derives_of_read {page : Page} {levels : Nat} {X : Precedence} {f : Formula}
    {s rest : List Char}
    (h : (X.reader (primary page levels)).read s = .ok (f, rest)) :
    ∃ depth, depth ≤ levels ∧ Derives page.dialect X depth f s rest := by
  have hexplained := explained_read page levels X s
  rwa [h] at hexplained

end ComplexFormula
