/-
# Texts in which operators are respelled

A product may be spelled by its mark or by its sign. Where characters are exchanged for others
that spell the same operators, identifiers, lexemes and parentheses stay where they are, and no
more marks are put into a text that has them.

* `Respelling` : exchanges of operators by others of the same meaning;
* `Identifier.read_map`, `balanced_map` : what stays where it is;
* `withMarks_map`, `withMarks_withMarks` : a marked text, respelled or not, has all its marks;
* `words_map` : it has the names and the calls of the text.
-/
import ComplexFormula.Proofs.Seams

namespace ComplexFormula

/-! ## Names and calls -/

/-- Whether a lexeme is a name or a call. -/
def Lexeme.isWord : Lexeme → Bool
  | symbol _ => false
  | _ => true

/-- The names and the calls of a text. -/
def words (dialect : Dialect) (s : List Char) : List Lexeme :=
  (lexemes dialect s).filter Lexeme.isWord

/-- A character that is no letter is no word. -/
theorem words_symbol (dialect : Dialect) {c : Char} (hc : isLetter c = false) (s : List Char) :
    words dialect (c :: s) = words dialect s := by
  rw [words, lexemes_of_symbol dialect hc]
  rfl

/-- The first call of a text. -/
theorem words_call (dialect : Dialect) {c : Char} (hc : isLetter c = true)
    {s inside : List Char} {f : RealFunction}
    (h : Identifier.read dialect (c :: s) = (.call f, '(' :: inside)) :
    words dialect (c :: s) = .call f :: words dialect inside := by
  rw [words, lexemes_of_call dialect hc h]
  rfl

/-- The first name of a text. -/
theorem words_name (dialect : Dialect) {c : Char} (hc : isLetter c = true)
    {s rest letters : List Char} (h : Identifier.read dialect (c :: s) = (.name letters, rest)) :
    words dialect (c :: s) = .name letters :: words dialect rest := by
  rw [words, lexemes_of_name dialect hc h]
  rfl

/-- The names are those of the words. -/
theorem scannedNames_eq (dialect : Dialect) (s : List Char) :
    scannedNames dialect s = (words dialect s).filterMap Lexeme.named? := by
  rw [scannedNames, words, List.filterMap_filter]
  refine List.filterMap_congr fun x _ => ?_
  cases x <;> rfl

/-! ## Exchanges of operators -/

/-- An exchange of characters that keeps the operators that they spell, and all characters
that are no operators. -/
structure Respelling (φ : Char → Char) : Prop where
  operator (c : Char) : BinaryOperator.ofChar? (φ c) = BinaryOperator.ofChar? c
  fixed {c : Char} (h : BinaryOperator.ofChar? c = none) : φ c = c

/-- Characters may stay what they are. -/
theorem Respelling.refl : Respelling id where
  operator _ := rfl
  fixed _ := rfl

namespace Respelling

variable {φ : Char → Char} (h : Respelling φ)

include h

/-- What is the same for all operators is kept. -/
theorem congr {α : Type} {g : Char → α} {a : α}
    (hg : ∀ c op, BinaryOperator.ofChar? c = some op → g c = a) (c : Char) : g (φ c) = g c := by
  cases hop : BinaryOperator.ofChar? c with
  | none => rw [h.fixed hop]
  | some op => rw [hg (φ c) op ((h.operator c).trans hop), hg c op hop]

/-- Letters are kept. -/
theorem isLetter (c : Char) : isLetter (φ c) = ComplexFormula.isLetter c :=
  h.congr (fun _ _ hop => BinaryOperator.isLetter_of_ofChar? hop) c

/-- Digits are kept. -/
theorem isDigit (c : Char) : (φ c).isDigit = c.isDigit :=
  h.congr (fun _ _ hop => isDigit_of_ofChar? hop) c

/-- The characters of numerals are kept. -/
theorem isNumeralChar (c : Char) : Reader.isNumeralChar (φ c) = Reader.isNumeralChar c :=
  h.congr (fun _ _ hop => isNumeralChar_of_ofChar? hop) c

/-- A character that is no operator is met where it was. -/
theorem eq_iff {c x : Char} (hx : BinaryOperator.ofChar? x = none) : φ c = x ↔ c = x := by
  constructor
  · rintro rfl
    exact (h.fixed ((h.operator c).symm.trans hx)).symm
  · rintro rfl
    exact h.fixed hx

/-- The sign of a difference is met where it was. -/
theorem eq_minus_iff {c : Char} : φ c = '-' ↔ c = '-' := by
  have hminus : BinaryOperator.ofChar? '-' = some .sub := by decide
  have heq : ∀ x, BinaryOperator.ofChar? x = some .sub → x = '-' := by
    intro x hx
    rcases BinaryOperator.eq_of_ofChar? hx with rfl | hx
    · exact absurd hx (by decide)
    · exact hx
  constructor
  · intro hc
    have hop := h.operator c
    rw [hc, hminus] at hop
    exact heq c hop.symm
  · rintro rfl
    exact heq _ ((h.operator '-').trans hminus)

/-- An operator of a symbol is met where it was. -/
theorem filter_operator (kind : BinaryOperator → Bool) (c : Char) :
    Reader.operatorOf kind (φ c) = Reader.operatorOf kind c := by
  rw [Reader.operatorOf, Reader.operatorOf, h.operator]

/-- The same neighbours imply a product. -/
theorem impliesProduct (a b : Char) :
    impliesProduct (φ a) (φ b) = ComplexFormula.impliesProduct a b := by
  have hopen : φ b = '(' ↔ b = '(' := h.eq_iff (by decide)
  have hclose : (φ a == ')') = (a == ')') := by
    rw [Bool.eq_iff_iff, beq_iff_eq, beq_iff_eq]
    exact h.eq_iff (by decide)
  simp only [ComplexFormula.impliesProduct, h.isLetter, h.isDigit, hopen, hclose]

/-- A text without operators is kept. -/
theorem map_eq {s : List Char} (hs : ∀ c ∈ s, BinaryOperator.ofChar? c = none) :
    s.map φ = s :=
  (List.map_congr_left fun c hc => h.fixed (hs c hc)).trans (List.map_id s)

/-- Letters in a row are kept. -/
theorem map_letters {s : List Char} (hs : ∀ c ∈ s, ComplexFormula.isLetter c = true) :
    s.map φ = s :=
  h.map_eq fun c hc => ofChar?_of_isLetter (hs c hc)

/-- A numeral is kept. -/
theorem map_numeral {s : List Char} (hs : ∀ c ∈ s, Reader.isNumeralChar c = true) :
    s.map φ = s :=
  h.map_eq fun c hc => ofChar?_of_isNumeralChar (hs c hc)

/-! ## Identifiers and parentheses -/

/-- **Identifiers stay where they are.** -/
theorem read_map (dialect : Dialect) {c : Char} (hc : ComplexFormula.isLetter c = true)
    (s : List Char) :
    Identifier.read dialect ((c :: s).map φ)
      = ((Identifier.read dialect (c :: s)).1, (Identifier.read dialect (c :: s)).2.map φ) := by
  have hcomp : ComplexFormula.isLetter ∘ φ = ComplexFormula.isLetter := funext h.isLetter
  have htake : ((c :: s).map φ).takeWhile ComplexFormula.isLetter
      = (c :: s).takeWhile ComplexFormula.isLetter := by
    rw [List.takeWhile_map, hcomp]
    exact h.map_letters fun x hx => List.all_eq_true.1 List.all_takeWhile x hx
  have hdrop : ((c :: s).map φ).dropWhile ComplexFormula.isLetter
      = ((c :: s).dropWhile ComplexFormula.isLetter).map φ := by
    rw [List.dropWhile_map, hcomp]
  have hcall : ∀ word rest, Identifier.call? dialect word (rest.map φ)
      = Identifier.call? dialect word rest := by
    intro word rest
    cases rest with
    | nil => rfl
    | cons x rest =>
      have hopen : (φ x = '(') = (x = '(') := propext (h.eq_iff (by decide))
      simp [Identifier.call?, hopen]
  have hfirst : φ c = c := h.fixed (ofChar?_of_isLetter hc)
  unfold Identifier.read
  simp only [htake, hdrop, hcall]
  split
  · rfl
  · split
    · rfl
    · simp [hfirst]

/-- A text has its parentheses where it had them. -/
theorem balanced_map (s : List Char) : Balanced (s.map φ) ↔ Balanced s := by
  refine balanced_congr ?_
  have hparenthesis : ∀ c, isParenthesis (φ c) = isParenthesis c := by
    refine h.congr (a := false) fun c op hop => ?_
    simp [isParenthesis, BinaryOperator.ne_open_of_ofChar? hop,
      BinaryOperator.ne_close_of_ofChar? hop]
  have hcomp : isParenthesis ∘ φ = isParenthesis := funext hparenthesis
  rw [List.filter_map, hcomp]
  refine h.map_eq fun c hc => ?_
  -- a parenthesis is no operator
  have hc := (List.mem_filter.1 hc).2
  rw [isParenthesis, Bool.or_eq_true, beq_iff_eq, beq_iff_eq] at hc
  rcases hc with rfl | rfl <;> decide

/-- A group that is never closed stays so. -/
theorem closingIndex?_map {s : List Char} (hs : Reader.closingIndex? s = none) :
    Reader.closingIndex? (s.map φ) = none := by
  rw [Option.eq_none_iff_forall_not_mem]
  intro k hk
  obtain ⟨content, rest, hmap, hcontent, -⟩ := closingIndex?_eq_some_iff.1 hk
  obtain ⟨content, tail, rfl, rfl, htail⟩ := List.map_eq_append_iff.1 hmap
  obtain ⟨c, rest, rfl, hc, -⟩ := List.map_eq_cons_iff.1 htail
  obtain rfl := (h.eq_iff (by decide)).1 hc
  have hindex := closingIndex?_eq_some_iff.2
    ⟨content, rest, rfl, (h.balanced_map content).1 hcontent, rfl⟩
  rw [hs] at hindex
  simp at hindex

/-! ## Marks of products -/

variable (dialect : Dialect)

/-- The same seams have a mark. -/
theorem seam_map (c : Char) (t : List Char) : seam dialect (φ c) (t.map φ) = seam dialect c t := by
  cases t with
  | nil => simp [seam]
  | cons x t => simp [seam, h.impliesProduct]

/-- Where a mark has been put, no other one is put. -/
theorem seam_map_withMarks (c : Char) (t : List Char) :
    seam dialect (φ c) ((seam dialect c t ++ withMarks dialect t).map φ) = [] := by
  rcases seam_eq_or dialect c t with hseam | ⟨hseam, -⟩
  · rw [hseam, List.nil_append, h.seam_map, ← hseam, seam, seam, head?_withMarks]
  · rw [hseam]
    exact seam_of_detached dialect
      (detached_operator ((h.operator invisibleTimes).trans rfl) _) _

/-- Behind a character a text is marked as on its own. -/
theorem withMarks_seam {c : Char} {t : List Char}
    (ht : withMarks dialect ((withMarks dialect t).map φ) = (withMarks dialect t).map φ) :
    withMarks dialect ((seam dialect c t ++ withMarks dialect t).map φ)
      = (seam dialect c t ++ withMarks dialect t).map φ := by
  rcases seam_eq_or dialect c t with hseam | ⟨hseam, -⟩
  · rw [hseam, List.nil_append, ht]
  · rw [hseam, List.singleton_append, List.map_cons,
      withMarks_operator dialect ((h.operator invisibleTimes).trans rfl), ht]

/-- A detached text stays so. -/
theorem detached_map {t : List Char} (ht : Detached t) : Detached (t.map φ) := by
  cases t with
  | nil => exact detached_nil
  | cons c t =>
    obtain ⟨hletter, hdigit, hopen⟩ := detached_cons.1 ht
    rw [List.map_cons, detached_cons, h.isLetter, h.isDigit, Ne, h.eq_iff (by decide)]
    exact ⟨hletter, hdigit, hopen⟩

omit h in
/-- In a marked text a name is detached from what stands behind it. -/
theorem detached_behind_name (himplied : dialect.impliedProducts = true) {last : Char}
    (hlast : ComplexFormula.isLetter last = true) (rest : List Char) :
    Detached (seam dialect last rest ++ withMarks dialect rest) := by
  rcases seam_eq_or dialect last rest with hseam | ⟨hseam, -⟩
  · rw [hseam, List.nil_append]
    refine detached_of_impliesProduct hlast fun next hnext => ?_
    rw [head?_withMarks] at hnext
    rw [seam, himplied, hnext] at hseam
    simpa using hseam
  · rw [hseam]
    exact detached_operator rfl _

/-- In a marked text a call is read as in the text. -/
theorem read_marked_call {c : Char} (hc : ComplexFormula.isLetter c = true) {s inside : List Char}
    {f : RealFunction} (hread : Identifier.read dialect (c :: s) = (.call f, '(' :: inside)) :
    ∃ tail, (withMarks dialect (c :: s)).map φ = c :: tail ∧
      Identifier.read dialect (c :: tail)
        = (.call f, '(' :: (withMarks dialect inside).map φ) := by
  rw [withMarks_call dialect hc hread, List.map_append,
    h.map_letters RealFunction.isLetter_of_mem_name, List.map_cons, h.fixed (by decide)]
  exact Identifier.read_of_call dialect hread _

/-- In a marked text a name is read up to its end. -/
theorem read_marked_name (himplied : dialect.impliedProducts = true) {c : Char}
    (hc : ComplexFormula.isLetter c = true) {s rest letters : List Char}
    (hread : Identifier.read dialect (c :: s) = (.name letters, rest)) {last : Char}
    (hlast : letters.getLast? = some last) :
    ∃ tail, (withMarks dialect (c :: s)).map φ = c :: tail ∧
      Identifier.read dialect (c :: tail)
        = (.name letters, (seam dialect last rest ++ withMarks dialect rest).map φ) := by
  have hall := (Identifier.isLetter_of_read_name hc hread).2
  have hdetached := h.detached_map
    (detached_behind_name dialect himplied (hall last (List.mem_of_getLast? hlast)) rest)
  rw [withMarks_name dialect hc hread hlast, List.map_append, h.map_letters hall]
  exact Identifier.read_of_name dialect hc hread hdetached

/-- **A marked text that is respelled has all its marks.** -/
theorem withMarks_map (s : List Char) :
    withMarks dialect ((withMarks dialect s).map φ) = (withMarks dialect s).map φ := by
  cases himplied : dialect.impliedProducts with
  | false => rw [withMarks_of_not_implied dialect himplied]
  | true =>
    -- the induction is on the lexemes of the text, each of which keeps its mark
    fun_induction lexemes dialect s with
    | case1 => rw [withMarks_nil, List.map_nil, withMarks_nil]
    | case2 c rest hc f after hread ih =>
      obtain ⟨inside, rfl⟩ := Identifier.exists_of_read_call hread
      obtain ⟨tail, hmap, hread'⟩ := h.read_marked_call dialect hc hread
      rw [List.tail_cons] at ih
      rw [hmap, withMarks_call dialect hc hread', ih, Identifier.append_of_read_call hread']
    | case3 c rest hc letters after hread ih =>
      obtain ⟨last, hlast, hletter⟩ := Identifier.exists_last_of_read_name hc hread
      obtain ⟨tail, hmap, hread'⟩ := h.read_marked_name dialect himplied hc hread hlast
      have hseam := h.seam_map_withMarks dialect last after
      rw [h.fixed (ofChar?_of_isLetter hletter)] at hseam
      rw [hmap, withMarks_name dialect hc hread' hlast, h.withMarks_seam dialect ih, hseam,
        List.nil_append, Identifier.append_of_read_name hread']
    | case4 c rest hc ih =>
      rw [Bool.not_eq_true] at hc
      rw [withMarks_symbol dialect hc, List.map_cons,
        withMarks_symbol dialect ((h.isLetter c).trans hc), h.withMarks_seam dialect ih,
        h.seam_map_withMarks dialect, List.nil_append]

/-- A mark holds no word. -/
theorem words_seam (c : Char) (t : List Char) :
    words dialect ((seam dialect c t ++ withMarks dialect t).map φ)
      = words dialect ((withMarks dialect t).map φ) := by
  rcases seam_eq_or dialect c t with hseam | ⟨hseam, -⟩
  · rw [hseam, List.nil_append]
  · rw [hseam, List.singleton_append, List.map_cons,
      words_symbol dialect ((h.isLetter _).trans isLetter_invisibleTimes)]

/-- **A marked text that is respelled has the names and the calls of the text.** -/
theorem words_map (s : List Char) :
    words dialect ((withMarks dialect s).map φ) = words dialect s := by
  cases himplied : dialect.impliedProducts with
  | false =>
    -- without marks only the characters are respelled
    rw [withMarks_of_not_implied dialect himplied]
    fun_induction lexemes dialect s with
    | case1 => rfl
    | case2 c rest hc f after hread ih =>
      obtain ⟨inside, rfl⟩ := Identifier.exists_of_read_call hread
      have hopen : φ '(' = '(' := h.fixed (by decide)
      have hread' := h.read_map dialect hc rest
      rw [hread, List.map_cons, List.map_cons, h.fixed (ofChar?_of_isLetter hc), hopen] at hread'
      rw [List.map_cons, h.fixed (ofChar?_of_isLetter hc), words_call dialect hc hread',
        words_call dialect hc hread]
      exact congrArg _ ih
    | case3 c rest hc letters after hread ih =>
      have hread' := h.read_map dialect hc rest
      rw [hread, List.map_cons, h.fixed (ofChar?_of_isLetter hc)] at hread'
      rw [List.map_cons, h.fixed (ofChar?_of_isLetter hc), words_name dialect hc hread',
        words_name dialect hc hread, ih]
    | case4 c rest hc ih =>
      rw [Bool.not_eq_true] at hc
      rw [List.map_cons, words_symbol dialect ((h.isLetter c).trans hc),
        words_symbol dialect hc, ih]
  | true =>
    fun_induction lexemes dialect s with
    | case1 => rw [withMarks_nil, List.map_nil]
    | case2 c rest hc f after hread ih =>
      obtain ⟨inside, rfl⟩ := Identifier.exists_of_read_call hread
      obtain ⟨tail, hmap, hread'⟩ := h.read_marked_call dialect hc hread
      rw [hmap, words_call dialect hc hread', words_call dialect hc hread]
      exact congrArg _ ih
    | case3 c rest hc letters after hread ih =>
      obtain ⟨last, hlast, -⟩ := Identifier.exists_last_of_read_name hc hread
      obtain ⟨tail, hmap, hread'⟩ := h.read_marked_name dialect himplied hc hread hlast
      rw [hmap, words_name dialect hc hread', words_name dialect hc hread,
        h.words_seam dialect, ih]
    | case4 c rest hc ih =>
      rw [Bool.not_eq_true] at hc
      rw [withMarks_symbol dialect hc, List.map_cons,
        words_symbol dialect ((h.isLetter c).trans hc), h.words_seam dialect, ih,
        words_symbol dialect hc]

end Respelling

/-- **A marked text has all its marks.** -/
theorem withMarks_withMarks (dialect : Dialect) (s : List Char) :
    withMarks dialect (withMarks dialect s) = withMarks dialect s := by
  have hmarks := Respelling.refl.withMarks_map dialect s
  rwa [List.map_id] at hmarks

/-- **A normal form has the names and the calls of the text.** -/
theorem words_withMarks (dialect : Dialect) (s : List Char) :
    words dialect (withMarks dialect s) = words dialect s := by
  have hwords := Respelling.refl.words_map dialect s
  rwa [List.map_id] at hwords

end ComplexFormula
