/-
# Texts that are read alike

Two texts are read alike if the readers cannot tell them apart where they read: the characters
are the same up to respelled operators, identifiers and literal groups are, and so are the
positions. The formulas are then the same, and the faults too, up to the texts that they quote.

* `Front` : fronts of a text behind which readers go on;
* `Alike` : outcomes of readers that are the same up to respelling;
* `Mirrors` : what has to hold of the rests of two texts;
* `alike_read` : the readers of both texts have the same outcomes;
* `Mirrors.read_eq`, `readAndEvaluate_of_read_eq` : so have the whole texts.
-/
import ComplexFormula.Proofs.Grammar.Complete
import ComplexFormula.Proofs.Respelling
import ComplexFormula.Proofs.Unknown

namespace ComplexFormula

open Reader

/-! ## Quoted texts -/

/-- The reason with the text that it quotes respelled. -/
def SyntaxError.mapText (φ : Char → Char) : SyntaxError → SyntaxError
  | unclosedParenthesis position => .unclosedParenthesis position
  | numeralExpected position found => .numeralExpected position (found.map φ)
  | unexpectedText position text => .unexpectedText position (text.map φ)
  | nestedTooDeep limit => .nestedTooDeep limit

/-- The fault with the text that it quotes respelled. -/
def Fault.mapText (φ : Char → Char) (fault : Fault) : Fault :=
  { fault with reason := fault.reason.mapText φ }

/-- The reason with the text that it quotes respelled. -/
def FormulaError.mapText (φ : Char → Char) : FormulaError → FormulaError
  | malformed reason => .malformed (reason.mapText φ)
  | reason => reason

/-- A text is respelled character by character. -/
theorem map_ofList (φ : Char → Char) (s : List Char) :
    (String.ofList s).map φ = String.ofList (s.map φ) := by
  rw [← String.toList_inj, String.toList_map, String.toList_ofList, String.toList_ofList]

/-- Without respelling a fault is the same. -/
theorem Fault.mapText_id (fault : Fault) : fault.mapText id = fault := by
  have hid : ∀ text : String, text.map id = text := by
    intro text
    rw [← String.toList_inj, String.toList_map, List.map_id]
  obtain ⟨completed, reason⟩ := fault
  cases reason <;> simp [mapText, SyntaxError.mapText, hid]

/-! ## Fronts -/

/-- `Front dialect q r`: in a text that goes on with `r` behind `q`, the parentheses of `q` are
closed in it, and no name or call reaches over its end. -/
structure Front (dialect : Dialect) (q r : List Char) : Prop where
  balanced : Balanced q
  words : words dialect r <:+ words dialect (q ++ r)

namespace Front

variable {dialect : Dialect} {p q r : List Char}

/-- A front may be empty. -/
theorem nil : Front dialect [] r where
  balanced := Balanced.of_not_mem List.not_mem_nil List.not_mem_nil
  words := List.suffix_rfl

/-- A front behind a front. -/
theorem append (hp : Front dialect p (q ++ r)) (hq : Front dialect q r) :
    Front dialect (p ++ q) r where
  balanced := hp.balanced.append hq.balanced
  words := by
    rw [List.append_assoc]
    exact hq.words.trans hp.words

/-- Characters that are neither letters nor parentheses are a front of any text. -/
theorem of_symbols (hbalanced : Balanced p) (hp : ∀ c ∈ p, isLetter c = false) :
    Front dialect p r where
  balanced := hbalanced
  words := (lexemes_suffix_of_symbols dialect hp r).filter _

/-- A character that is neither letter nor parenthesis may stand before a front. -/
theorem cons (hq : Front dialect q r) {c : Char} (hc : isLetter c = false) (hopen : c ≠ '(')
    (hclose : c ≠ ')') : Front dialect (c :: q) r where
  balanced := hq.balanced.cons hopen hclose
  words := hq.words.trans ((lexemes_suffix_cons dialect hc (q ++ r)).filter _)

/-- The content of a group is a front of the text that closes it. -/
theorem of_close (hq : Balanced q) : Front dialect q (')' :: r) where
  balanced := hq
  words := by
    rw [words_symbol dialect (by decide)]
    exact (lexemes_suffix_of_cut (by decide) q r).filter _

/-- A group is a front of any text. -/
theorem enclose (hq : Balanced q) : Front dialect ('(' :: q ++ [')']) r where
  balanced := hq.enclose
  words := by
    rw [List.append_assoc]
    exact (lexemes_suffix_of_cut (by decide) ('(' :: q) r).filter _

/-- A name is a front of the text behind it. -/
theorem of_read_name {c : Char} {s letters : List Char} (hc : isLetter c = true)
    (h : Identifier.read dialect (c :: s) = (.name letters, r)) : Front dialect letters r where
  balanced := Balanced.of_isLetter (Identifier.isLetter_of_read_name hc h).2
  words := by
    rw [Identifier.append_of_read_name h, words_name dialect hc h]
    exact List.suffix_cons _ _

/-- The name of a function is a front of its argument in parentheses. -/
theorem of_read_call {c : Char} {s inside : List Char} {f : RealFunction}
    (hc : isLetter c = true)
    (h : Identifier.read dialect (c :: s) = (.call f, '(' :: inside)) :
    Front dialect f.name.toList ('(' :: inside) where
  balanced := Balanced.of_isLetter RealFunction.isLetter_of_mem_name
  words := by
    rw [Identifier.append_of_read_call h, words_call dialect hc h,
      words_symbol dialect (by decide)]
    exact List.suffix_cons _ _

/-- At a letter there is a front. -/
theorem exists_of_isLetter {c : Char} (hc : isLetter c = true) (s : List Char) :
    ∃ q r, s = q ++ r ∧ Front dialect (c :: q) r := by
  obtain ⟨word, r, hread⟩ : ∃ word r, Identifier.read dialect (c :: s) = (word, r) :=
    ⟨_, _, rfl⟩
  have hsplit : ∃ letters, letters ≠ [] ∧ letters ++ r = c :: s ∧ Front dialect letters r := by
    cases word with
    | name letters =>
      exact ⟨letters, (Identifier.isLetter_of_read_name hc hread).1,
        Identifier.append_of_read_name hread, .of_read_name hc hread⟩
    | call f =>
      obtain ⟨inside, rfl⟩ := Identifier.exists_of_read_call hread
      exact ⟨f.name.toList, f.name_ne_nil, Identifier.append_of_read_call hread,
        .of_read_call hc hread⟩
  obtain ⟨letters, hne, hchars, hfront⟩ := hsplit
  obtain ⟨x, q, rfl⟩ := List.exists_cons_of_ne_nil hne
  obtain ⟨rfl, rfl⟩ := List.cons.inj hchars
  exact ⟨q, r, rfl, hfront⟩

end Front

/-! ## Outcomes -/

/-- Outcomes that are the same up to respelling: a formula from the same front of both texts,
or the fault. -/
inductive Alike (φ : Char → Char) (dialect : Dialect) (s s' : List Char) :
    Reading → Reading → Prop
  | ok {f : Formula} {q r r' : List Char} (hq : Front dialect q r) (hs : s = q ++ r)
      (hs' : s' = q.map φ ++ r') : Alike φ dialect s s' (.ok (f, r)) (.ok (f, r'))
  | error {fault : Fault} : Alike φ dialect s s' (.error fault) (.error (fault.mapText φ))

namespace Alike

variable {φ : Char → Char} {dialect : Dialect} {s s' : List Char} {x x' : Reading}

/-- What is alike behind a front is alike in front of it. -/
theorem after {p : List Char} (hp : Front dialect p s) (h : Alike φ dialect s s' x x') :
    Alike φ dialect (p ++ s) (p.map φ ++ s') x x' := by
  cases h with
  | error => exact .error
  | ok hq hs hs' =>
    subst hs hs'
    exact .ok (hp.append hq) (by simp) (by simp)

/-- Where one reader breaks off, so does the other. -/
theorem eq_error {fault : Fault} (h : Alike φ dialect s s' (.error fault) x') :
    x' = .error (fault.mapText φ) := by
  cases h with
  | error => rfl

/-- Where one reader finds a formula, the other finds it behind the same front. -/
theorem exists_ok {f : Formula} {r : List Char} (h : Alike φ dialect s s' (.ok (f, r)) x') :
    ∃ q r', x' = .ok (f, r') ∧ Front dialect q r ∧ s = q ++ r ∧ s' = q.map φ ++ r' := by
  cases h with
  | ok hq hs hs' => exact ⟨_, _, rfl, hq, hs, hs'⟩

/-- What goes on alike behind a formula is alike as a whole, because it breaks off where the
formula does. -/
theorem bind {t t' : List Char} {k k' : Formula → List Char → Reading} :
    Alike φ dialect s s' x x' →
    (∀ f q r r', Front dialect q r → s = q ++ r → s' = q.map φ ++ r' →
      Alike φ dialect t t' (k f r) (k' f r')) →
    Alike φ dialect t t'
      (match x with
        | .error fault => .error fault
        | .ok (f, r) => k f r)
      (match x' with
        | .error fault => .error fault
        | .ok (f, r) => k' f r) := by
  intro h hk
  cases h with
  | error => exact .error
  | ok hq hs hs' => exact hk _ _ _ _ hq hs hs'

end Alike

/-! ## Texts that mirror each other -/

/-- `Mirrors φ page page' R`: rests of two texts that `R` relates are read alike, as far as
single steps of the readers tell. -/
structure Mirrors (φ : Char → Char) (page page' : Page)
    (R : List Char → List Char → Prop) : Prop where
  /-- Operators are exchanged for others of the same meaning. -/
  respelling : Respelling φ
  /-- As many groups, calls and roots may be open. -/
  limit : page'.dialect.nestingLimit = page.dialect.nestingLimit
  /-- The rests begin at the same position. -/
  position {s s' : List Char} (h : R s s') : page'.position s' = page.position s
  /-- The texts end together. -/
  nil {s' : List Char} (h : R [] s') : s' = []
  /-- Behind a front the rests go on alike. -/
  advance {q r s' : List Char} (h : R (q ++ r) s') (hq : Front page.dialect q r) :
    ∃ r', s' = q.map φ ++ r' ∧ R r r'
  /-- So they do behind an opening parenthesis. -/
  descend {s s' : List Char} (h : R ('(' :: s) s') : ∃ t', s' = '(' :: t' ∧ R s t'
  /-- A closing parenthesis stands in both. -/
  close {s s' : List Char} (h : R (')' :: s) s') : ∃ t', s' = ')' :: t'
  /-- A group that is never closed is not closed in the other text. -/
  unclosed {s s' : List Char} (h : R s s') (hindex : closingIndex? s = none) :
    closingIndex? s' = none
  /-- The same identifier is read. -/
  identifier {c : Char} {s s' : List Char} (h : R (c :: s) s') (hc : isLetter c = true) :
    (Identifier.read page'.dialect s').1 = (Identifier.read page.dialect (c :: s)).1
  /-- A group is the same literal in both, or in none. -/
  literal {content rest s' : List Char} (h : R ('(' :: (content ++ ')' :: rest)) s')
    (hcontent : Balanced content) : groupLiteral? (content.map φ) = groupLiteral? content

section

variable {φ : Char → Char} {page page' : Page} {R : List Char → List Char → Prop}

namespace Mirrors

variable (h : Mirrors φ page page' R)

include h

/-- Behind a front that was read in both texts the rests go on alike. -/
theorem rest {q r r' : List Char} (hR : R (q ++ r) (q.map φ ++ r'))
    (hq : Front page.dialect q r) : R r r' := by
  obtain ⟨t', ht', hrest⟩ := h.advance hR hq
  rwa [List.append_cancel_left ht']

/-- Behind a character that is neither letter nor parenthesis the rests go on alike. -/
theorem step {c : Char} {s s' : List Char} (hR : R (c :: s) s') (hc : isLetter c = false)
    (hopen : c ≠ '(') (hclose : c ≠ ')') : ∃ t', s' = φ c :: t' ∧ R s t' :=
  h.advance hR (Front.nil.cons hc hopen hclose)

/-- The same characters stand in front. -/
theorem cons {c : Char} {s s' : List Char} (hR : R (c :: s) s') : ∃ t', s' = φ c :: t' := by
  by_cases hopen : c = '('
  · subst hopen
    obtain ⟨t', rfl, -⟩ := h.descend hR
    exact ⟨t', by rw [h.respelling.fixed (by decide)]⟩
  · by_cases hclose : c = ')'
    · subst hclose
      obtain ⟨t', rfl⟩ := h.close hR
      exact ⟨t', by rw [h.respelling.fixed (by decide)]⟩
    · cases hletter : isLetter c with
      | false =>
        obtain ⟨t', rfl, -⟩ := h.step hR hletter hopen hclose
        exact ⟨t', rfl⟩
      | true =>
        obtain ⟨q, r, rfl, hfront⟩ := Front.exists_of_isLetter hletter s
        obtain ⟨r', rfl, -⟩ := h.advance hR hfront
        exact ⟨q.map φ ++ r', rfl⟩

/-- The rests begin with the same character. -/
theorem head? {s s' : List Char} (hR : R s s') : s'.head? = s.head?.map φ := by
  cases s with
  | nil =>
    rw [h.nil hR]
    rfl
  | cons c s =>
    obtain ⟨t', rfl⟩ := h.cons hR
    rfl

/-- A group that is closed is closed in the other text, behind the same content. -/
theorem closed {inside inside' : List Char} {k : Nat} (hR : R inside inside')
    (hindex : closingIndex? inside = some k) :
    ∃ content rest rest', inside = content ++ ')' :: rest ∧
      inside' = content.map φ ++ ')' :: rest' ∧ Balanced content ∧ k = content.length ∧
      closingIndex? inside' = some k := by
  obtain ⟨content, rest, rfl, hcontent, rfl⟩ := closingIndex?_eq_some_iff.1 hindex
  obtain ⟨r', rfl, hrest⟩ := h.advance hR (.of_close hcontent)
  obtain ⟨rest', rfl⟩ := h.close hrest
  refine ⟨content, rest, rest', rfl, rfl, hcontent, rfl, ?_⟩
  refine closingIndex?_eq_some_iff.2 ⟨_, rest', rfl, (h.respelling.balanced_map _).2 hcontent, ?_⟩
  rw [List.length_map]

end Mirrors

/-! ## Chains and signs -/

/-- Readers that have the same outcomes for related rests. -/
def AlikeReaders (φ : Char → Char) (dialect : Dialect) (R : List Char → List Char → Prop)
    (p p' : Reader) : Prop :=
  ∀ s s', R s s' → Alike φ dialect s s' (p.read s) (p'.read s')

variable (h : Mirrors φ page page' R)

include h

/-- A chain that goes on after its left part. -/
theorem alike_chainFrom {X : Precedence} {p p' : Reader} (hp : AlikeReaders φ page.dialect R p p')
    {left : Formula} {s s' : List Char} (hR : R s s') :
    Alike φ page.dialect s s' (chainFrom X.operator? p left s)
      (chainFrom X.operator? p' left s') := by
  have hoperator : ∀ c, X.operator? (φ c) = X.operator? c := h.respelling.filter_operator _
  fun_induction chainFrom X.operator? p left s generalizing s' with
  | case1 left =>
    rw [h.nil hR, chainFrom]
    exact .ok .nil rfl rfl
  | case2 left c tail hop =>
    obtain ⟨t', rfl⟩ := h.cons hR
    rw [chainFrom_of_none ((hoperator c).trans hop)]
    exact .ok .nil rfl rfl
  | case3 left c tail op hop fault hread =>
    have hchar := (Precedence.operator?_eq_some_iff.1 hop).1
    obtain ⟨t', rfl, htail⟩ := h.step hR (BinaryOperator.isLetter_of_ofChar? hchar)
      (BinaryOperator.ne_open_of_ofChar? hchar) (BinaryOperator.ne_close_of_ofChar? hchar)
    have hright := hp tail t' htail
    rw [hread] at hright
    rw [chainFrom_of_fault ((hoperator c).trans hop) hright.eq_error]
    exact .error
  | case4 left c tail op hop right rest hread ih =>
    have hchar := (Precedence.operator?_eq_some_iff.1 hop).1
    have hletter := BinaryOperator.isLetter_of_ofChar? hchar
    have hopen := BinaryOperator.ne_open_of_ofChar? hchar
    have hclose := BinaryOperator.ne_close_of_ofChar? hchar
    obtain ⟨t', rfl, htail⟩ := h.step hR hletter hopen hclose
    have hright := hp tail t' htail
    rw [hread] at hright
    obtain ⟨q, rest', hread', hq, rfl, rfl⟩ := hright.exists_ok
    rw [chainFrom_of_operand ((hoperator c).trans hop) hread']
    exact (ih (h.rest htail hq)).after (hq.cons hletter hopen hclose)

/-- A chain of operands. -/
theorem alike_chain {X : Precedence} (hX : X.rank < 3) {p p' : Reader}
    (hp : AlikeReaders φ page.dialect R (X.tighter.reader p) (X.tighter.reader p')) :
    AlikeReaders φ page.dialect R (X.reader p) (X.reader p') := by
  intro s s' hR
  have hfirst := hp s s' hR
  rw [Precedence.reader_eq_chain hX, Precedence.reader_eq_chain hX]
  refine hfirst.bind fun f q r r' hq hs hs' => ?_
  subst hs hs'
  exact (alike_chainFrom h hp (h.rest hR hq)).after hq

/-- A primary, or a sign and a primary. -/
theorem alike_signed {p p' : Reader} (hp : AlikeReaders φ page.dialect R p p') :
    AlikeReaders φ page.dialect R (signed p) (signed p') := by
  intro s s' hR
  by_cases hsign : s.head? = some '-'
  · obtain ⟨tail, rfl⟩ := List.head?_eq_some_iff.1 hsign
    obtain ⟨tail', rfl, htail⟩ := h.step hR (by decide) (by decide) (by decide)
    have hs := hp tail tail' htail
    have hminus : φ '-' = '-' := h.respelling.eq_minus_iff.2 rfl
    rw [hminus]
    refine hs.bind fun f q r r' hq hrest hrest' => ?_
    subst hrest hrest'
    exact .ok (hq.cons (by decide) (by decide) (by decide)) rfl
      (by rw [List.map_cons, hminus]; rfl)
  · have hsign' : s'.head? ≠ some '-' := by
      intro hhead
      rw [h.head? hR] at hhead
      obtain ⟨c, hc, hminus⟩ := Option.map_eq_some_iff.1 hhead
      rw [h.respelling.eq_minus_iff.1 hminus] at hc
      exact hsign hc
    rw [read_signed_of_ne p hsign, read_signed_of_ne p' hsign']
    exact hp s s' hR

/-- All symbols, when primaries are read alike. -/
theorem alike_reader {p p' : Reader} (hp : AlikeReaders φ page.dialect R p p') (X : Precedence) :
    AlikeReaders φ page.dialect R (X.reader p) (X.reader p') := by
  -- the symbols in turn, from the tightest to the loosest
  have hsigned : AlikeReaders φ page.dialect R (Precedence.signed.reader p)
      (Precedence.signed.reader p') := alike_signed h hp
  have hpower : AlikeReaders φ page.dialect R (Precedence.power.reader p)
      (Precedence.power.reader p') := alike_chain h (by decide) hsigned
  have hproduct :
      AlikeReaders φ page.dialect R (Precedence.product.reader p) (Precedence.product.reader p') :=
    alike_chain h (by decide) hpower
  cases X with
  | sum => exact alike_chain h (by decide) hproduct
  | product => exact hproduct
  | power => exact hpower
  | signed => exact hsigned
  | primary => exact hp

/-! ## Primaries -/

/-- The end of a group, after its formula. -/
theorem alike_close {q rest rest' : List Char} (hR : R (q ++ rest) (q.map φ ++ rest'))
    (hq : Front page.dialect q rest) (f : Formula) :
    Alike φ page.dialect ('(' :: (q ++ rest)) ('(' :: (q.map φ ++ rest'))
      (close page (q ++ rest) f rest) (close page' (q.map φ ++ rest') f rest') := by
  have hrest := h.rest hR hq
  have hclose : φ ')' = ')' := h.respelling.fixed (by decide)
  have hopen : φ '(' = '(' := h.respelling.fixed (by decide)
  by_cases hhead : rest.head? = some ')'
  · obtain ⟨t, rfl⟩ := List.head?_eq_some_iff.1 hhead
    obtain ⟨t', rfl⟩ := h.close hrest
    exact .ok (.enclose hq.balanced) (by simp) (by simp [hopen, hclose])
  · have hhead' : rest'.head? ≠ some ')' := by
      intro hclosed
      rw [h.head? hrest] at hclosed
      obtain ⟨c, hc, heq⟩ := Option.map_eq_some_iff.1 hclosed
      rw [(h.respelling.eq_iff (by decide)).1 heq] at hc
      exact hhead hc
    cases hindex : closingIndex? (q ++ rest) with
    | none =>
      rw [close_of_unclosed hhead hindex, close_of_unclosed hhead' (h.unclosed hR hindex),
        h.position hR]
      exact .error
    | some k =>
      obtain ⟨content, t, t', hs, hs', hcontent, rfl, hindex'⟩ := h.closed hR hindex
      -- the formula ends inside the content
      obtain ⟨u, rfl, rfl, -⟩ := hq.balanced.exists_of_append_close hcontent hs
      rw [List.map_append, List.append_assoc] at hs'
      obtain rfl := List.append_cancel_left hs'
      have hlength : (q ++ u).length = (q.map φ ++ u.map φ).length := by simp
      rw [close_of_left hhead hindex, close_of_left hhead' (hlength ▸ hindex'),
        h.position hrest, ← map_ofList]
      exact .error

omit h in
/-- All readers one level further in are alike. -/
def AlikeWithin (φ : Char → Char) (page page' : Page) (R : List Char → List Char → Prop)
    (levels : Nat) : Prop :=
  ∀ n, levels = n + 1 → ∀ X : Precedence,
    AlikeReaders φ page.dialect R (X.reader (primary page n)) (X.reader (primary page' n))

variable {levels : Nat} (hinner : AlikeWithin φ page page' R levels)

include hinner

/-- A root. -/
theorem alike_readRoot {s s' : List Char} (hR : R s s') :
    Alike φ page.dialect (rootSign :: s) (rootSign :: s') (readRoot (nestedReader page levels) s)
      (readRoot (nestedReader page' levels) s') := by
  have hroot : φ rootSign = rootSign := h.respelling.fixed (by decide)
  cases levels with
  | zero =>
    simp only [nestedReader, readRoot, h.limit]
    exact .error
  | succ n =>
    have hs := hinner n rfl .signed s s' hR
    simp only [Precedence.reader] at hs
    simp only [nestedReader, readRoot]
    refine hs.bind fun f q r r' hq hrest hrest' => ?_
    subst hrest hrest'
    exact .ok (hq.cons isLetter_rootSign (by decide) (by decide)) rfl
      (by rw [List.map_cons, hroot]; rfl)

/-- A formula in parentheses. -/
theorem alike_readEnclosed {inside inside' : List Char} (hR : R inside inside') :
    Alike φ page.dialect ('(' :: inside) ('(' :: inside')
      (readEnclosed page (nestedReader page levels) inside)
      (readEnclosed page' (nestedReader page' levels) inside') := by
  cases levels with
  | zero =>
    simp only [nestedReader, readEnclosed, h.limit]
    exact .error
  | succ n =>
    have hs := hinner n rfl .sum inside inside' hR
    simp only [Precedence.reader] at hs
    simp only [nestedReader, readEnclosed]
    refine hs.bind fun f q r r' hq hrest hrest' => ?_
    subst hrest hrest'
    exact alike_close h hR hq f

/-- A group, if it is the same literal in both texts, or in none. -/
theorem alike_readGroup {inside inside' : List Char} (hR : R inside inside')
    (hliteral : ∀ content rest, inside = content ++ ')' :: rest → Balanced content →
      groupLiteral? (content.map φ) = groupLiteral? content) :
    Alike φ page.dialect ('(' :: inside) ('(' :: inside')
      (readGroup page (nestedReader page levels) inside)
      (readGroup page' (nestedReader page' levels) inside') := by
  have henclosed := alike_readEnclosed h hinner hR
  unfold readGroup
  cases hindex : closingIndex? inside with
  | none =>
    rw [h.unclosed hR hindex]
    simp only [h.position hR]
    exact .error
  | some k =>
    obtain ⟨content, rest, rest', rfl, rfl, hcontent, rfl, hindex'⟩ := h.closed hR hindex
    have hgroup := hliteral content rest rfl hcontent
    have hlength : content.length = (content.map φ).length := (List.length_map φ).symm
    rw [hindex']
    cases levels with
    | zero =>
      simp only [nestedReader, h.limit]
      exact .error
    | succ n =>
      simp only [nestedReader, List.take_left]
      rw [hlength, List.take_left, hgroup, ← hlength]
      cases groupLiteral? content with
      | none => exact henclosed
      | some literal =>
        have hopen : φ '(' = '(' := h.respelling.fixed (by decide)
        have hclose : φ ')' = ')' := h.respelling.fixed (by decide)
        simp only [drop_content]
        rw [hlength, drop_content]
        exact .ok (.enclose hcontent) (by simp) (by simp [hopen, hclose])

/-- A call or a name. -/
theorem alike_readIdentifier {c : Char} {s s' : List Char} (hc : isLetter c = true)
    (hR : R (c :: s) s') :
    Alike φ page.dialect (c :: s) s' (readIdentifier page (nestedReader page levels) (c :: s))
      (readIdentifier page' (nestedReader page' levels) s') := by
  have hword := h.identifier hR hc
  obtain ⟨word, rest', hread'⟩ : ∃ word rest',
      Identifier.read page'.dialect s' = (word, rest') := ⟨_, _, rfl⟩
  rw [hread'] at hword
  unfold readIdentifier
  rw [hread']
  split
  · next letters rest hread =>
    rw [hread] at hword
    obtain rfl : word = .name letters := hword
    obtain ⟨-, hletters⟩ := Identifier.isLetter_of_read_name hc hread
    refine .ok (.of_read_name hc hread) (Identifier.append_of_read_name hread).symm ?_
    rw [h.respelling.map_letters hletters]
    exact (Identifier.append_of_read_name hread').symm
  · next function rest hread =>
    rw [hread] at hword
    obtain rfl : word = .call function := hword
    obtain ⟨inside, rfl⟩ := Identifier.exists_of_read_call hread
    obtain ⟨inside', rfl⟩ := Identifier.exists_of_read_call hread'
    have hchars := Identifier.append_of_read_call hread
    have hchars' := Identifier.append_of_read_call hread'
    have hletters := @RealFunction.isLetter_of_mem_name function
    have hname := h.respelling.map_letters hletters
    have hfront := Front.of_read_call hc hread
    -- behind the name of the function the argument is read alike
    have hparenthesis : R ('(' :: inside) ('(' :: inside') := by
      refine h.rest ?_ hfront
      rwa [hname, hchars, hchars']
    obtain ⟨t', ht', hinside⟩ := h.descend hparenthesis
    obtain rfl : inside' = t' := (List.cons.inj ht').2
    have hargument := alike_readEnclosed h hinner hinside
    rw [← hchars, ← hchars', ← congrArg (· ++ '(' :: inside') hname]
    refine Alike.after hfront ?_
    simp only [List.tail_cons]
    exact hargument.bind fun f q r r' hq hs hs' => .ok hq hs hs'

omit hinner in
/-- A numeral, where nothing else can begin. -/
theorem alike_readNumeral {s s' : List Char} (hR : R s s') :
    Alike φ page.dialect s s' (readNumeral page s) (readNumeral page' s') := by
  have hrun : ∀ c ∈ s.takeWhile isNumeralChar, isNumeralChar c = true :=
    List.all_eq_true.1 List.all_takeWhile
  have hfront : ∀ r, Front page.dialect (s.takeWhile isNumeralChar) r := fun r =>
    .of_symbols (Balanced.of_isNumeralChar hrun) fun c hc => isLetter_of_isNumeralChar (hrun c hc)
  have hsplit := List.takeWhile_append_dropWhile (p := isNumeralChar) (l := s)
  have hR' := hR
  rw [← hsplit] at hR'
  obtain ⟨rest', rfl, hrest⟩ := h.advance hR' (hfront _)
  rw [h.respelling.map_numeral hrun] at hR ⊢
  -- the run ends at the same place in the other text
  have hmaximal : ∀ c ∈ rest'.head?, isNumeralChar c = false := by
    intro c hc
    rw [h.head? hrest] at hc
    obtain ⟨x, hx, rfl⟩ := Option.map_eq_some_iff.1 hc
    rw [h.respelling.isNumeralChar]
    exact isNumeralChar_of_head?_dropWhile s x hx
  obtain ⟨htake, hdrop⟩ := span_isNumeralChar_append hrun hmaximal
  simp only [readNumeral, htake, hdrop]
  split
  · next hempty =>
    rw [List.isEmpty_iff] at hempty
    rw [hempty, List.nil_append] at hR ⊢
    have hfirst : rest'.take 1 = (s.take 1).map φ := by
      have hhead := h.head? hR
      cases s with
      | nil => rw [h.nil hR]; rfl
      | cons c s =>
        obtain ⟨t', ht'⟩ := h.cons hR
        rw [ht']
        rfl
    rw [hfirst, ← map_ofList, h.position hR]
    exact .error
  · cases Numeral.read? (s.takeWhile isNumeralChar) with
    | some n =>
      simp only
      exact .ok (hfront _) hsplit.symm (by rw [h.respelling.map_numeral hrun])
    | none =>
      simp only
      rw [h.position hR]
      have hquoted : (String.ofList (s.takeWhile isNumeralChar)).map φ
          = String.ofList (s.takeWhile isNumeralChar) := by
        rw [map_ofList, h.respelling.map_numeral hrun]
      nth_rewrite 2 [← hquoted]
      exact .error

/-- A primary. -/
theorem alike_readPrimary {s s' : List Char} (hR : R s s') :
    Alike φ page.dialect s s' (readPrimary page (nestedReader page levels) s)
      (readPrimary page' (nestedReader page' levels) s') := by
  cases s with
  | nil =>
    obtain rfl := h.nil hR
    exact alike_readNumeral h hR
  | cons c s =>
    obtain ⟨t', rfl⟩ := h.cons hR
    by_cases hroot : c = rootSign
    · subst hroot
      obtain ⟨tail', ht', htail⟩ := h.step hR isLetter_rootSign (by decide) (by decide)
      obtain rfl : t' = tail' := (List.cons.inj ht').2
      rw [h.respelling.fixed (by decide), readPrimary_root, readPrimary_root]
      exact alike_readRoot h hinner htail
    · by_cases hopen : c = '('
      · subst hopen
        have hfixed : φ '(' = '(' := h.respelling.fixed (by decide)
        obtain ⟨inside', ht', hinside⟩ := h.descend hR
        obtain rfl : t' = inside' := (List.cons.inj ht').2
        rw [hfixed, readPrimary_open, readPrimary_open]
        refine alike_readGroup h hinner hinside fun content rest hs hcontent => ?_
        subst hs
        exact h.literal hR hcontent
      · by_cases hletter : isLetter c = true
        · have hletter' := (h.respelling.isLetter c).trans hletter
          rw [readPrimary_letter hletter, readPrimary_letter hletter']
          exact alike_readIdentifier h hinner hletter hR
        · have hroot' : φ c ≠ rootSign := mt (h.respelling.eq_iff (by decide)).1 hroot
          have hopen' : φ c ≠ '(' := mt (h.respelling.eq_iff (by decide)).1 hopen
          have hletter' : ¬ isLetter (φ c) = true := by rwa [h.respelling.isLetter]
          rw [readPrimary, readPrimary, if_neg hroot, if_neg hopen, if_neg hletter,
            if_neg hroot', if_neg hopen', if_neg hletter']
          exact alike_readNumeral h hR

omit hinner in
/-- **The readers of both texts have the same outcomes.** -/
theorem alike_read (levels : Nat) (X : Precedence) :
    AlikeReaders φ page.dialect R (X.reader (primary page levels))
      (X.reader (primary page' levels)) := by
  induction levels generalizing X with
  | zero =>
    refine alike_reader h (fun s s' hR => ?_) X
    rw [read_primary, read_primary]
    exact alike_readPrimary h (fun n hn => absurd hn (Nat.succ_ne_zero n).symm) hR
  | succ levels ih =>
    refine alike_reader h (fun s s' hR => ?_) X
    rw [read_primary, read_primary]
    refine alike_readPrimary h (fun n hn X => ?_) hR
    obtain rfl := Nat.succ.inj hn
    exact ih X

end

/-! ## Whole texts -/

/-- **Texts that mirror each other are read alike**: the formula is the same, and so is the
fault up to the text that it quotes. -/
theorem Mirrors.read_eq {φ : Char → Char} {dialect dialect' : Dialect} {s s' : List Char}
    {R : List Char → List Char → Prop}
    (h : Mirrors φ (Page.ofText dialect s) (Page.ofText dialect' s') R) (hR : R s s')
    (hmap : ∀ r r', R r r' → r' = r.map φ) :
    Formula.read dialect' s' = (Formula.read dialect s).mapError (Fault.mapText φ) := by
  have hlimit : dialect'.nestingLimit = dialect.nestingLimit := h.limit
  have halike := alike_read h dialect.nestingLimit .sum s s' hR
  change Alike φ dialect s s' ((Formula.reader (Page.ofText dialect s)).read s)
    ((sum (primary (Page.ofText dialect' s') dialect.nestingLimit)).read s') at halike
  rw [← hlimit] at halike
  change Alike φ dialect s s' _ ((Formula.reader (Page.ofText dialect' s')).read s') at halike
  unfold Formula.read
  simp only
  cases hread : (Formula.reader (Page.ofText dialect s)).read s with
  | error fault =>
    rw [hread] at halike
    rw [halike.eq_error]
    rfl
  | ok result =>
    obtain ⟨f, rest⟩ := result
    rw [hread] at halike
    obtain ⟨q, rest', hread', hq, hs, hs'⟩ := halike.exists_ok
    rw [hread']
    have hrest : R rest rest' := by
      subst hs hs'
      exact h.rest hR hq
    cases rest with
    | nil =>
      rw [h.nil hrest]
      rfl
    | cons c rest =>
      obtain rfl := hmap _ _ hrest
      simp only [List.map_cons]
      rw [← List.map_cons, ← map_ofList, h.position hrest]
      rfl

/-- A reason of a formula without a value quotes no text that is respelled. -/
theorem FormulaError.OfValue.mapText_eq {bindings : Bindings} {P : Operand → Prop}
    {reason : FormulaError} (h : reason.OfValue bindings P) (φ : Char → Char) :
    reason.mapText φ = reason := by
  cases h with
  | undefined reason => rfl
  | unknown hleaf hnone => rfl

/-- **Texts that are read alike are evaluated alike.** -/
theorem readAndEvaluate_of_read_eq {φ : Char → Char} {dialect dialect' : Dialect}
    {s s' : List Char}
    (h : Formula.read dialect' s' = (Formula.read dialect s).mapError (Fault.mapText φ))
    (bindings : Bindings) :
    Formula.readAndEvaluate dialect' bindings s'
      = (Formula.readAndEvaluate dialect bindings s).mapError (FormulaError.mapText φ) := by
  have htrivial : ∀ f : Formula, f.AllLeaves fun _ => True := by
    intro f
    induction f with
    | leaf operand => trivial
    | unary op f ih => exact ih
    | binary op f g ihl ihr => exact ⟨ihl, ihr⟩
  unfold Formula.readAndEvaluate
  rw [h]
  cases hread : Formula.read dialect s with
  | error fault =>
    simp only [Except.mapError]
    cases hcheck : Formula.check bindings fault.completed with
    | error reason =>
      have hreason := Formula.ofValue_of_check (fun f _ => htrivial f) hcheck
      rw [Fault.mapText, hcheck]
      simp only [hreason.mapText_eq φ]
    | ok =>
      rw [Fault.mapText, hcheck]
      rfl
  | ok f =>
    simp only [Except.mapError]
    cases hvalue : f.evaluate bindings with
    | error reason =>
      have hreason := Formula.ofValue_of_evaluate (htrivial f) hvalue
      simp only [hreason.mapText_eq φ]
    | ok value => rfl

end ComplexFormula
