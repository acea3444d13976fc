/-
# Scanning and reading

A formula is read off the text from the places at which the scanner of names also starts:
behind every formula the lexemes are a tail of the lexemes in front of it. So the reader
meets no name that the scanner misses.

* `lexemes_suffix_of_cut` : a text may be cut behind any character that is no letter;
* `Derives.lexemes_suffix` : behind a formula the lexemes go on;
* `Derives.isScanned`, `Fails.isScanned` : the names of what is read are scanned.
-/
import ComplexFormula.Proofs.Grammar.Outcome
import ComplexFormula.Proofs.Term

namespace ComplexFormula

/-! ## Places to cut -/

/-- A run of letters ends before a character that is none. -/
theorem dropWhile_isLetter_append {c : Char} (hc : isLetter c = false) (p rest : List Char) :
    (p ++ c :: rest).dropWhile isLetter = p.dropWhile isLetter ++ c :: rest := by
  rw [List.dropWhile_append, List.dropWhile_cons_of_neg (by simp [hc])]
  split
  · next hempty => rw [List.isEmpty_iff.1 hempty, List.nil_append]
  · rfl

/-- An identifier does not reach over a character that is no letter. -/
theorem Identifier.exists_of_read_append {dialect : Dialect} {c : Char}
    (hc : isLetter c = false) {x : Char} {p rest after : List Char} {word : Identifier}
    (h : read dialect (x :: (p ++ c :: rest)) = (word, after)) :
    ∃ q, after = q ++ c :: rest := by
  have hrun := dropWhile_isLetter_append hc (x :: p) rest
  rw [List.cons_append] at hrun
  unfold read at h
  simp only at h
  split at h
  · rw [← (Prod.mk.inj h).2]
    exact ⟨_, hrun⟩
  · split at h
    · rw [← (Prod.mk.inj h).2]
      exact ⟨_, hrun⟩
    · rw [← (Prod.mk.inj h).2]
      exact ⟨p, rfl⟩

/-- Behind a character that is no letter the lexemes go on: only the last character of a
lexeme can be one. -/
theorem lexemes_suffix_of_cut {dialect : Dialect} {c : Char} (hc : isLetter c = false)
    (p rest : List Char) : lexemes dialect rest <:+ lexemes dialect (p ++ c :: rest) := by
  -- an identifier takes several characters at once, so the induction is on the length
  induction hn : p.length using Nat.strongRecOn generalizing p with
  | ind n ih =>
    subst hn
    match p with
    | [] =>
      rw [List.nil_append, lexemes_of_symbol dialect hc]
      exact List.suffix_cons _ _
    | x :: p =>
      rw [List.cons_append]
      rw [List.length_cons] at ih
      cases hx : isLetter x with
      | false =>
        rw [lexemes_of_symbol dialect hx]
        exact (ih p.length (Nat.lt_succ_self _) p rfl).trans (List.suffix_cons _ _)
      | true =>
        obtain ⟨word, after, hread⟩ : ∃ word after,
            Identifier.read dialect (x :: (p ++ c :: rest)) = (word, after) := ⟨_, _, rfl⟩
        obtain ⟨q, rfl⟩ := Identifier.exists_of_read_append hc hread
        have hshorter := Identifier.length_read_lt dialect hx (p ++ c :: rest)
        rw [hread] at hshorter
        simp only [List.length_append, List.length_cons] at hshorter
        cases word with
        | name letters =>
          rw [lexemes_of_name dialect hx hread]
          exact (ih q.length (by omega) q rfl).trans (List.suffix_cons _ _)
        | call f =>
          rw [lexemes_of_call dialect hx hread]
          cases q with
          | nil =>
            -- the character is the parenthesis of the call
            exact List.suffix_cons _ _
          | cons y q =>
            rw [List.length_cons] at hshorter
            exact (ih q.length (by omega) q rfl).trans (List.suffix_cons _ _)

/-! ## Behind a formula -/

/-- Behind characters that are no letters the lexemes go on. -/
theorem lexemes_suffix_of_symbols (dialect : Dialect) {p : List Char}
    (hp : ∀ c ∈ p, isLetter c = false) (rest : List Char) :
    lexemes dialect rest <:+ lexemes dialect (p ++ rest) := by
  induction p with
  | nil => exact List.suffix_rfl
  | cons c p ih =>
    rw [List.cons_append, lexemes_of_symbol dialect (hp c List.mem_cons_self)]
    exact (ih fun x hx => hp x (List.mem_cons_of_mem c hx)).trans (List.suffix_cons _ _)

/-- Behind a character that is no letter the lexemes go on. -/
theorem lexemes_suffix_cons (dialect : Dialect) {c : Char} (hc : isLetter c = false)
    (rest : List Char) : lexemes dialect rest <:+ lexemes dialect (c :: rest) := by
  rw [lexemes_of_symbol dialect hc]
  exact List.suffix_cons _ _

/-- The lexemes of the argument of a call are a tail of those of the call. -/
theorem lexemes_suffix_of_call {dialect : Dialect} {c : Char} (hc : isLetter c = true)
    {s inside : List Char} {f : RealFunction}
    (h : Identifier.read dialect (c :: s) = (.call f, '(' :: inside)) :
    lexemes dialect inside <:+ lexemes dialect (c :: s) := by
  rw [lexemes_of_call dialect hc h]
  exact List.suffix_cons _ _

/-- **Behind a formula the lexemes go on.** -/
theorem Derives.lexemes_suffix {dialect : Dialect} {X : Precedence} {depth : Nat} {f : Formula}
    {s rest : List Char} (h : Derives dialect X depth f s rest) :
    lexemes dialect rest <:+ lexemes dialect s := by
  induction h with
  | operand hX h ih => exact ih
  | chain hX hleft hop hright ihl ihr =>
    have hsymbol := BinaryOperator.isLetter_of_ofChar? hop
    exact (ihr.trans (lexemes_suffix_cons dialect hsymbol _)).trans ihl
  | negation h ih => exact ih.trans (lexemes_suffix_cons dialect (by decide) _)
  | root h ih => exact ih.trans (lexemes_suffix_cons dialect isLetter_rootSign _)
  | @literal content rest value h =>
    -- a literal may hold letters, which the scanner takes for names
    exact lexemes_suffix_of_cut (by decide) ('(' :: content) rest
  | @group depth f content rest hliteral h ih =>
    exact lexemes_suffix_of_cut (by decide) ('(' :: content) rest
  | call hc hread h ih =>
    have hclose := lexemes_suffix_cons dialect (by decide : isLetter ')' = false)
    exact ((hclose _).trans ih).trans (lexemes_suffix_of_call hc hread)
  | name hc hread =>
    rw [lexemes_of_name dialect hc hread]
    exact List.suffix_cons _ _
  | numeral hne hrun hmaximal hread =>
    exact lexemes_suffix_of_symbols dialect
      (fun c hc => isLetter_of_isNumeralChar (hrun c hc)) _

/-! ## The names of a formula -/

/-- The names among the lexemes of a text. -/
def scannedNames (dialect : Dialect) (s : List Char) : List String :=
  (lexemes dialect s).filterMap Lexeme.named?

/-- A tail of the lexemes holds no more names. -/
theorem scannedNames_subset {dialect : Dialect} {s t : List Char}
    (h : lexemes dialect s <:+ lexemes dialect t) {name : String}
    (hname : name ∈ scannedNames dialect s) : name ∈ scannedNames dialect t :=
  (h.filterMap Lexeme.named?).subset hname

/-- If an operand is a name, it is scanned in a text. -/
def Operand.IsScanned (dialect : Dialect) (s : List Char) : Operand → Prop
  | constant _ _ => True
  | name text => text ∈ scannedNames dialect s

/-- What is scanned in a tail is scanned in the whole. -/
theorem Operand.IsScanned.mono {dialect : Dialect} {s t : List Char}
    (h : lexemes dialect s <:+ lexemes dialect t) (operand : Operand)
    (hoperand : operand.IsScanned dialect s) : operand.IsScanned dialect t := by
  cases operand with
  | constant text value => trivial
  | name text => exact scannedNames_subset h hoperand

/-- All names of a formula are scanned in a text. -/
def Formula.IsScanned (dialect : Dialect) (s : List Char) (f : Formula) : Prop :=
  f.AllLeaves (Operand.IsScanned dialect s)

/-- A formula that is scanned in a tail is scanned in the whole. -/
theorem Formula.IsScanned.mono {dialect : Dialect} {s t : List Char} {f : Formula}
    (hf : f.IsScanned dialect s) (h : lexemes dialect s <:+ lexemes dialect t) :
    f.IsScanned dialect t :=
  Term.AllLeaves.imp (Operand.IsScanned.mono h) hf

/-- **The names of a formula are scanned.** -/
theorem Derives.isScanned {dialect : Dialect} {X : Precedence} {depth : Nat} {f : Formula}
    {s rest : List Char} (h : Derives dialect X depth f s rest) : f.IsScanned dialect s := by
  induction h with
  | operand hX h ih => exact ih
  | chain hX hleft hop hright ihl ihr =>
    -- the right operand begins behind the left one and the operator
    have hsymbol := BinaryOperator.isLetter_of_ofChar? hop
    have hsuffix := (lexemes_suffix_cons dialect hsymbol _).trans hleft.lexemes_suffix
    exact ⟨ihl, ihr.mono hsuffix⟩
  | negation h ih => exact ih.mono (lexemes_suffix_cons dialect (by decide) _)
  | root h ih => exact ih.mono (lexemes_suffix_cons dialect isLetter_rootSign _)
  | literal h => trivial
  | group hliteral h ih => exact ih.mono (lexemes_suffix_cons dialect (by decide) _)
  | call hc hread h ih => exact ih.mono (lexemes_suffix_of_call hc hread)
  | @name c s rest letters hc hread =>
    show String.ofList letters ∈ scannedNames dialect (c :: s)
    rw [scannedNames, lexemes_of_name dialect hc hread]
    exact List.mem_cons_self
  | numeral hne hrun hmaximal hread => trivial

/-- Where a group does not end, only its formula was complete. -/
theorem Reader.eq_of_mem_completed_close {page : Page} {inside s : List Char} {f g : Formula}
    {fault : Fault} (h : close page inside f s = .error fault) (hg : g ∈ fault.completed) :
    g = f := by
  unfold close at h
  split at h
  · simp at h
  · split at h
    · rw [← Except.error.inj h] at hg
      exact List.mem_singleton.1 hg
    · rw [← Except.error.inj h] at hg
      exact List.mem_singleton.1 hg

/-- Where a numeral is missing, nothing was complete. -/
theorem Reader.completed_readNumeral {page : Page} {s : List Char} {fault : Fault}
    (h : readNumeral page s = .error fault) : fault.completed = [] := by
  unfold readNumeral at h
  simp only at h
  split at h
  · rw [← Except.error.inj h]
    rfl
  · split at h
    · simp at h
    · rw [← Except.error.inj h]
      rfl

/-- **The names of the formulas before a fault are scanned.** -/
theorem Fails.isScanned {page : Page} {X : Precedence} {levels : Nat} {fault : Fault}
    {s : List Char} (h : Fails page X levels fault s) :
    ∀ f ∈ fault.completed, f.IsScanned page.dialect s := by
  induction h with
  | operand hX hsign h ih => exact ih
  | chain hX hleft hdepth hop hright ih =>
    have hsymbol := BinaryOperator.isLetter_of_ofChar? hop
    have hsuffix := (lexemes_suffix_cons _ hsymbol _).trans hleft.lexemes_suffix
    intro f hf
    rcases List.mem_cons.1 hf with rfl | hf
    · exact hleft.isScanned
    · exact (ih f hf).mono hsuffix
  | negation h ih =>
    intro f hf
    exact (ih f hf).mono (lexemes_suffix_cons _ (by decide) _)
  | root h ih =>
    intro f hf
    exact (ih f hf).mono (lexemes_suffix_cons _ isLetter_rootSign _)
  | rootTooDeep => simp [Fault.ofReason]
  | unclosed h => simp [Fault.ofReason]
  | groupTooDeep hcontent => simp [Fault.ofReason]
  | group hcontent hliteral h ih =>
    intro f hf
    exact (ih f hf).mono (lexemes_suffix_cons _ (by decide) _)
  | groupEnd hcontent hliteral h hdepth hclose =>
    intro f hf
    obtain rfl := Reader.eq_of_mem_completed_close hclose hf
    exact h.isScanned.mono (lexemes_suffix_cons _ (by decide) _)
  | callTooDeep hc hread => simp [Fault.ofReason]
  | call hc hread h ih =>
    intro f hf
    exact (ih f hf).mono (lexemes_suffix_of_call hc hread)
  | callEnd hc hread h hdepth hclose =>
    intro f hf
    obtain rfl := Reader.eq_of_mem_completed_close hclose hf
    exact h.isScanned.mono (lexemes_suffix_of_call hc hread)
  | numeral hroot hopen hletter h =>
    rw [Reader.completed_readNumeral h]
    simp

end ComplexFormula
