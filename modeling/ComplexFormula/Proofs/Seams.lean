/-
# Seams of texts

Where a text goes on with something that no operand can swallow, identifiers, lexemes and
marks of products are found in either part on its own.

* `Detached` : texts that nothing in front of them reaches into;
* `Identifier.read_append`, `withMarks_append` : what is found in the parts;
* `seam` : the mark between a character and the text behind it;
* `withMarks_symbol`, `withMarks_call`, `withMarks_name` : how a text is marked, lexeme by
  lexeme;
* `Derives.append` : a formula is derived up to where another text is put behind it.
-/
import Mathlib.Data.List.TakeWhile
import ComplexFormula.Proofs.Normal
import ComplexFormula.Proofs.Scanning

namespace ComplexFormula

variable (dialect : Dialect)

/-! ## Detached texts -/

/-- A text is detached if it begins with no letter, no digit and no opening parenthesis. -/
def Detached (t : List Char) : Prop :=
  ∀ c ∈ t.head?, isLetter c = false ∧ c.isDigit = false ∧ c ≠ '('

/-- The end of a text is detached. -/
theorem detached_nil : Detached [] := by
  intro c hc
  simp at hc

/-- A text is detached by its first character. -/
theorem detached_cons {c : Char} {t : List Char} :
    Detached (c :: t) ↔ isLetter c = false ∧ c.isDigit = false ∧ c ≠ '(' := by
  constructor
  · intro h
    exact h c rfl
  · intro h x hx
    obtain rfl := Option.some.inj hx
    exact h

/-- A closing parenthesis is detached. -/
theorem detached_close (t : List Char) : Detached (')' :: t) :=
  detached_cons.2 (by decide)

/-- An operator is detached. -/
theorem detached_operator {c : Char} {op : BinaryOperator}
    (h : BinaryOperator.ofChar? c = some op) (t : List Char) : Detached (c :: t) :=
  detached_cons.2 ⟨BinaryOperator.isLetter_of_ofChar? h, isDigit_of_ofChar? h,
    BinaryOperator.ne_open_of_ofChar? h⟩

/-! ## Identifiers -/

/-- A run of letters ends before a detached text. -/
theorem span_isLetter_append {t : List Char} (ht : Detached t) (s : List Char) :
    (s ++ t).takeWhile isLetter = s.takeWhile isLetter ∧
      (s ++ t).dropWhile isLetter = s.dropWhile isLetter ++ t := by
  have hdrop : (s ++ t).dropWhile isLetter = s.dropWhile isLetter ++ t := by
    cases t with
    | nil => rw [List.append_nil, List.append_nil]
    | cons c t => exact dropWhile_isLetter_append (detached_cons.1 ht).1 s t
  refine ⟨?_, hdrop⟩
  refine @List.append_cancel_right _ _ ((s ++ t).dropWhile isLetter) _ ?_
  rw [List.takeWhile_append_dropWhile, hdrop, ← List.append_assoc,
    List.takeWhile_append_dropWhile]

/-- A detached text makes no call of the word before it. -/
theorem Identifier.call?_append {t : List Char} (ht : Detached t) (word rest : List Char) :
    call? dialect word (rest ++ t) = call? dialect word rest := by
  cases rest with
  | cons x rest => rfl
  | nil =>
    cases t with
    | nil => rfl
    | cons c t =>
      have hopen : c ≠ '(' := (detached_cons.1 ht).2.2
      simp [call?, hopen]

/-- **An identifier is read up to a detached text** as up to the end of the text. -/
theorem Identifier.read_append {t : List Char} (ht : Detached t) (c : Char) (s : List Char) :
    read dialect (c :: s ++ t)
      = ((read dialect (c :: s)).1, (read dialect (c :: s)).2 ++ t) := by
  obtain ⟨htake, hdrop⟩ := span_isLetter_append ht (c :: s)
  unfold read
  simp only [htake, hdrop, call?_append dialect ht]
  split
  · rfl
  · split <;> rfl

/-- The letters of a name are read as a name on their own. -/
theorem Identifier.read_letters {c : Char} (hc : isLetter c = true) {s rest letters : List Char}
    (h : read dialect (c :: s) = (name letters, rest)) :
    read dialect letters = (name letters, []) := by
  have hcall : ∀ word, call? dialect word [] = none := fun word => by simp [call?]
  unfold read at h
  simp only at h
  split at h
  · simp at h
  · split at h
    · next hlong =>
      obtain ⟨hletters, -⟩ := Prod.mk.inj h
      have hall : ∀ x ∈ letters, isLetter x = true := by
        rw [← name.inj hletters]
        exact List.all_eq_true.1 List.all_takeWhile
      have htake : letters.takeWhile isLetter = letters :=
        List.takeWhile_eq_self_iff.2 hall
      have hdrop : letters.dropWhile isLetter = [] := List.dropWhile_eq_nil_iff.2 hall
      simp only [read, htake, hdrop, hcall, hlong, ↓reduceIte]
    · obtain ⟨hletters, -⟩ := Prod.mk.inj h
      obtain rfl : [c] = letters := name.inj hletters
      exact read_of_lone hc (by simp)

/-- A name has a last letter. -/
theorem Identifier.exists_last_of_read_name {dialect : Dialect} {c : Char}
    (hc : isLetter c = true) {s rest letters : List Char}
    (h : read dialect (c :: s) = (name letters, rest)) :
    ∃ last, letters.getLast? = some last ∧ isLetter last = true := by
  obtain ⟨hne, hletters⟩ := isLetter_of_read_name hc h
  obtain ⟨front, last, rfl⟩ := (List.eq_nil_or_concat' letters).resolve_left hne
  exact ⟨last, List.getLast?_concat, hletters last (by simp)⟩

/-- A call is read whatever its argument is. -/
theorem Identifier.read_of_call {c : Char} {s inside : List Char} {f : RealFunction}
    (h : read dialect (c :: s) = (call f, '(' :: inside)) (t : List Char) :
    ∃ tail, f.name.toList ++ '(' :: t = c :: tail ∧
      read dialect (c :: tail) = (call f, '(' :: t) := by
  have hread := read_of_function (functions_of_read_call h) f t
  have hchars := append_of_read_call h
  obtain ⟨x, name, hname⟩ := List.exists_cons_of_ne_nil f.name_ne_nil
  rw [hname] at hchars hread ⊢
  obtain rfl : x = c := (List.cons.inj hchars).1
  exact ⟨_, rfl, hread⟩

/-- A name is read whatever detached text stands behind it. -/
theorem Identifier.read_of_name {c : Char} (hc : isLetter c = true) {s rest letters : List Char}
    (h : read dialect (c :: s) = (name letters, rest)) {t : List Char} (ht : Detached t) :
    ∃ tail, letters ++ t = c :: tail ∧ read dialect (c :: tail) = (name letters, t) := by
  have hletters := read_letters dialect hc h
  have hchars := append_of_read_name h
  obtain ⟨x, tail, rfl⟩ := List.exists_cons_of_ne_nil (isLetter_of_read_name hc h).1
  obtain rfl : x = c := (List.cons.inj hchars).1
  have hread := read_append dialect ht x tail
  rw [hletters, List.nil_append] at hread
  exact ⟨_, rfl, hread⟩

/-! ## Lexemes -/

/-- A text begins with its first lexeme. -/
theorem exists_lexeme (c : Char) (s : List Char) :
    ∃ x xs, lexemes dialect (c :: s) = x :: xs ∧ x.chars.head? = some c := by
  cases hc : isLetter c with
  | false => exact ⟨_, _, lexemes_of_symbol dialect hc s, rfl⟩
  | true =>
    obtain ⟨word, after, hread⟩ : ∃ word after,
        Identifier.read dialect (c :: s) = (word, after) := ⟨_, _, rfl⟩
    cases word with
    | call f =>
      refine ⟨_, _, lexemes_of_call dialect hc hread, ?_⟩
      obtain ⟨inside, rfl⟩ := Identifier.exists_of_read_call hread
      have hchars := Identifier.append_of_read_call hread
      obtain ⟨x, name, hname⟩ := List.exists_cons_of_ne_nil f.name_ne_nil
      rw [hname] at hchars
      rw [Lexeme.chars, hname, (List.cons.inj hchars).1]
      rfl
    | name letters =>
      refine ⟨_, _, lexemes_of_name dialect hc hread, ?_⟩
      have hchars := Identifier.append_of_read_name hread
      obtain ⟨x, letters, rfl⟩ :=
        List.exists_cons_of_ne_nil (Identifier.isLetter_of_read_name hc hread).1
      exact congrArg some (List.cons.inj hchars).1

/-! ## Implied products -/

/-- No product is implied before a detached text. -/
theorem impliesProduct_of_detached {c : Char} {t : List Char} (h : Detached (c :: t))
    (previous : Char) : impliesProduct previous c = false := by
  obtain ⟨hletter, hdigit, hopen⟩ := detached_cons.1 h
  simp [impliesProduct, hletter, hdigit, hopen]

/-- No product is implied behind a character at which no operand ends. -/
theorem impliesProduct_of_start {c : Char} (hletter : isLetter c = false)
    (hdigit : c.isDigit = false) (hclose : c ≠ ')') (next : Char) :
    impliesProduct c next = false := by
  simp [impliesProduct, hletter, hdigit, hclose]

/-- A letter implies a product with whatever is not detached. -/
theorem detached_of_impliesProduct {c : Char} (hc : isLetter c = true) {t : List Char}
    (h : ∀ next ∈ t.head?, impliesProduct c next = false) : Detached t := by
  intro next hnext
  have himplies := h next hnext
  unfold impliesProduct at himplies
  split at himplies
  · simp [hc] at himplies
  · next hopen =>
    split at himplies
    · simp [hc] at himplies
    · next hdigit =>
      split at himplies
      · simp [hc] at himplies
      · next hletter => exact ⟨by simpa using hletter, by simpa using hdigit, hopen⟩

/-- The mark between a character and the text behind it. -/
def seam (previous : Char) (t : List Char) : List Char :=
  if dialect.impliedProducts && t.head?.any (impliesProduct previous) then [invisibleTimes]
  else []

/-- A text with its implied products marked. -/
def withMarks (s : List Char) : List Char := spell dialect (lexemes dialect s)

/-- A normal form is the marked text without its blanks. -/
theorem normalChars_eq (s : List Char) :
    normalChars dialect s = withMarks dialect (withoutBlanks s) := rfl

/-- No mark stands before a detached text. -/
theorem seam_of_detached {t : List Char} (ht : Detached t) (previous : Char) :
    seam dialect previous t = [] := by
  cases t with
  | nil => simp [seam]
  | cons c t => simp [seam, impliesProduct_of_detached ht]

/-- No mark stands behind a character at which no operand ends. -/
theorem seam_of_start {c : Char} (hletter : isLetter c = false) (hdigit : c.isDigit = false)
    (hclose : c ≠ ')') (t : List Char) : seam dialect c t = [] := by
  cases t with
  | nil => simp [seam]
  | cons next t => simp [seam, impliesProduct_of_start hletter hdigit hclose]

/-- A seam is empty or a mark. -/
theorem seam_eq_or (previous : Char) (t : List Char) :
    seam dialect previous t = [] ∨
      seam dialect previous t = [invisibleTimes] ∧ dialect.impliedProducts = true := by
  unfold seam
  split
  · next h => exact Or.inr ⟨rfl, (Bool.and_eq_true_iff.1 h).1⟩
  · exact Or.inl rfl

/-- Behind its first lexeme a text is marked by the last character of it. -/
theorem spell_cons_lexemes {x : Lexeme} {last : Char} (hx : x.chars.getLast? = some last)
    (t : List Char) :
    spell dialect (x :: lexemes dialect t)
      = x.chars ++ (seam dialect last t ++ withMarks dialect t) := by
  cases t with
  | nil => simp [seam, withMarks, lexemes_nil, spell]
  | cons c t =>
    obtain ⟨y, ys, hlexemes, hy⟩ := exists_lexeme dialect c t
    have hmark : markBetween dialect x y = seam dialect last (c :: t) := by
      rw [markBetween, hx, hy]
      rfl
    rw [withMarks, hlexemes, spell, hmark, List.append_assoc]

/-- The empty text has no marks. -/
theorem withMarks_nil : withMarks dialect [] = [] := by
  rw [withMarks, lexemes_nil]
  rfl

/-- A marked text begins as the text does. -/
theorem head?_withMarks (s : List Char) : (withMarks dialect s).head? = s.head? := by
  cases s with
  | nil => rw [withMarks_nil]
  | cons c s =>
    obtain ⟨x, xs, hlexemes, hx⟩ := exists_lexeme dialect c s
    obtain ⟨chars, hchars⟩ := List.head?_eq_some_iff.1 hx
    rw [withMarks, hlexemes]
    cases xs with
    | nil => rw [spell, hchars]; rfl
    | cons y ys => rw [spell, hchars]; rfl

/-- A character that is no letter is marked on its own. -/
theorem withMarks_symbol {c : Char} (hc : isLetter c = false) (s : List Char) :
    withMarks dialect (c :: s) = c :: (seam dialect c s ++ withMarks dialect s) := by
  rw [withMarks, lexemes_of_symbol dialect hc, spell_cons_lexemes dialect rfl]
  rfl

/-- Where no operand ends, a character is only put in front. -/
theorem withMarks_start {c : Char} (hc : isLetter c = false) (hdigit : c.isDigit = false)
    (hclose : c ≠ ')') (s : List Char) :
    withMarks dialect (c :: s) = c :: withMarks dialect s := by
  rw [withMarks_symbol dialect hc, seam_of_start dialect hc hdigit hclose, List.nil_append]

/-- Behind an operator there is no mark. -/
theorem withMarks_operator {c : Char} {op : BinaryOperator}
    (hop : BinaryOperator.ofChar? c = some op) (s : List Char) :
    withMarks dialect (c :: s) = c :: withMarks dialect s :=
  withMarks_start dialect (BinaryOperator.isLetter_of_ofChar? hop) (isDigit_of_ofChar? hop)
    (BinaryOperator.ne_close_of_ofChar? hop) s

/-- Behind the parenthesis of a call there is no mark. -/
theorem withMarks_call {c : Char} (hc : isLetter c = true) {s inside : List Char}
    {f : RealFunction} (h : Identifier.read dialect (c :: s) = (.call f, '(' :: inside)) :
    withMarks dialect (c :: s) = f.name.toList ++ '(' :: withMarks dialect inside := by
  have hlast : (Lexeme.call f).chars.getLast? = some '(' := by
    rw [Lexeme.chars, List.getLast?_concat]
  rw [withMarks, lexemes_of_call dialect hc h, List.tail_cons, spell_cons_lexemes dialect hlast,
    seam_of_start dialect (by decide) (by decide) (by decide), Lexeme.chars]
  simp

/-- A name is marked by its last letter. -/
theorem withMarks_name {c : Char} (hc : isLetter c = true) {s rest letters : List Char}
    (h : Identifier.read dialect (c :: s) = (.name letters, rest)) {last : Char}
    (hlast : letters.getLast? = some last) :
    withMarks dialect (c :: s)
      = letters ++ (seam dialect last rest ++ withMarks dialect rest) := by
  have hchars : (Lexeme.name letters).chars.getLast? = some last := hlast
  rw [withMarks, lexemes_of_name dialect hc h, spell_cons_lexemes dialect hchars]
  rfl

/-- The mark between a character and the text behind it does not depend on how the text goes
on. -/
theorem seam_append {t : List Char} (ht : Detached t) (previous : Char) (s : List Char) :
    seam dialect previous (s ++ t) = seam dialect previous s := by
  cases s with
  | cons c s => rfl
  | nil => rw [List.nil_append, seam_of_detached dialect ht, seam_of_detached dialect detached_nil]

/-- **The marks up to a detached text** are those up to the end of the text. -/
theorem withMarks_append {t : List Char} (ht : Detached t) (s : List Char) :
    withMarks dialect (s ++ t) = withMarks dialect s ++ withMarks dialect t := by
  fun_induction lexemes dialect s with
  | case1 => rw [withMarks_nil, List.nil_append, List.nil_append]
  | case2 c rest hc f after hread ih =>
    obtain ⟨inside, rfl⟩ := Identifier.exists_of_read_call hread
    have hread' := Identifier.read_append dialect ht c rest
    rw [hread, List.cons_append, List.cons_append] at hread'
    rw [List.tail_cons] at ih
    rw [List.cons_append, withMarks_call dialect hc hread', withMarks_call dialect hc hread, ih,
      List.append_assoc, List.cons_append]
  | case3 c rest hc letters after hread ih =>
    have hread' := Identifier.read_append dialect ht c rest
    rw [hread, List.cons_append] at hread'
    obtain ⟨last, hlast, -⟩ := Identifier.exists_last_of_read_name hc hread
    rw [List.cons_append, withMarks_name dialect hc hread' hlast,
      withMarks_name dialect hc hread hlast, ih, seam_append dialect ht, List.append_assoc,
      List.append_assoc]
  | case4 c rest hc ih =>
    rw [Bool.not_eq_true] at hc
    rw [List.cons_append, withMarks_symbol dialect hc, withMarks_symbol dialect hc, ih,
      seam_append dialect ht, List.cons_append, List.append_assoc]

/-- Without implied products nothing is marked. -/
theorem withMarks_of_not_implied (h : dialect.impliedProducts = false) (s : List Char) :
    withMarks dialect s = s := by
  have hspell : ∀ xs, spell dialect xs = xs.flatMap Lexeme.chars := by
    intro xs
    fun_induction spell dialect xs with
    | case1 => rfl
    | case2 x => simp
    | case3 x y rest ih =>
      have hmark : markBetween dialect x y = [] := by
        unfold markBetween
        split <;> simp [h]
      rw [ih, hmark, List.append_nil]
      rfl
  rw [withMarks, hspell, flatMap_chars_lexemes]

/-! ## Formulas -/

/-- What may stand behind a complete operand: nothing, an operator or a closing parenthesis. -/
def EndsOperand (t : List Char) : Prop :=
  ∀ c ∈ t.head?, c = ')' ∨ ∃ op, BinaryOperator.ofChar? c = some op

namespace EndsOperand

/-- An operand may end with the text. -/
theorem nil : EndsOperand [] := by
  intro c hc
  simp at hc

/-- An operand ends before a closing parenthesis. -/
theorem close (t : List Char) : EndsOperand (')' :: t) := by
  intro c hc
  exact Or.inl (Option.some.inj hc).symm

/-- An operand ends before an operator. -/
theorem operator {c : Char} {op : BinaryOperator} (h : BinaryOperator.ofChar? c = some op)
    (t : List Char) : EndsOperand (c :: t) := by
  intro x hx
  obtain rfl := Option.some.inj hx
  exact Or.inr ⟨op, h⟩

variable {t : List Char}

/-- Nothing in front reaches behind the end of an operand. -/
theorem detached (h : EndsOperand t) : Detached t := by
  cases t with
  | nil => exact detached_nil
  | cons c t =>
    rcases h c rfl with rfl | ⟨op, hop⟩
    · exact detached_close t
    · exact detached_operator hop t

/-- No numeral goes on behind the end of an operand. -/
theorem isNumeralChar (h : EndsOperand t) :
    ∀ c ∈ t.head?, Reader.isNumeralChar c = false := by
  intro c hc
  rcases h c hc with rfl | ⟨op, hop⟩
  · decide
  · exact isNumeralChar_of_ofChar? hop

end EndsOperand

variable {dialect}

/-- **A formula is derived up to where another text is put behind it**, if that text could
stand behind an operand. -/
theorem Derives.append {X : Precedence} {depth : Nat} {f : Formula} {s rest t : List Char}
    (h : Derives dialect X depth f s rest) (ht : EndsOperand t) :
    Derives dialect X depth f (s ++ t) (rest ++ t) := by
  induction h with
  | operand hX h ih => exact .operand hX ih
  | chain hX hleft hop hright ihl ihr => exact .chain hX ihl hop ihr
  | negation h ih => exact .negation ih
  | root h ih => exact .root ih
  | @literal content rest value h =>
    rw [List.append_assoc, List.cons_append]
    exact .literal h
  | @group depth f content rest hliteral h ih =>
    rw [List.append_assoc, List.cons_append] at ih ⊢
    exact .group hliteral ih
  | @call depth function c f s s' rest hc hread h ih =>
    have hread' := Identifier.read_append dialect ht.detached c s
    rw [hread] at hread'
    exact .call hc hread' ih
  | @name c s rest letters hc hread =>
    have hread' := Identifier.read_append dialect ht.detached c s
    rw [hread] at hread'
    exact .name hc hread'
  | @numeral run rest n hne hrun hmaximal hread =>
    rw [List.append_assoc]
    refine .numeral hne hrun (fun c hc => ?_) hread
    cases rest with
    | nil => exact ht.isNumeralChar c hc
    | cons x rest => exact hmaximal c hc

end ComplexFormula
