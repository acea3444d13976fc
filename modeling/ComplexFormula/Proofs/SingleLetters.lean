/-
# Names of single letters

Where each letter is a name, neighbouring names are factors, and the normal form has marks of
products between them. So a name stands alone there, and is the same name for a dialect that
takes whole runs of letters: the dialect of single letters is translated by its normal forms.

* `SingleNames` : texts whose names are single letters;
* `SingleNames.read_eq`, `SingleNames.lexemes_eq` : they are cut alike whatever names are;
* `singleNames_withMarks` : the marked text of a dialect of single letters is one;
* `Formula.read_withLongNames` : such a text is read alike whatever names are;
* `Calculator.evaluate_withLongNames` : a normal form has the outcome of its text.
-/
import ComplexFormula.Proofs.Calculator
import ComplexFormula.Proofs.Grammar.Mirror

namespace ComplexFormula

/-- The dialect in which a run of letters is one name, or each letter is. -/
def Dialect.withLongNames (dialect : Dialect) (long : Bool) : Dialect :=
  { dialect with longNames := long }

variable (dialect : Dialect)

/-! ## Identifiers -/

namespace Identifier

/-- A call does not depend on what names are. -/
theorem read_call_withLongNames {dialect : Dialect} {s rest : List Char} {f : RealFunction}
    (h : read dialect s = (call f, rest)) (long : Bool) :
    read (dialect.withLongNames long) s = (call f, rest) := by
  unfold read at h ⊢
  simp only at h ⊢
  split at h
  · next g hcall =>
    have hcall' : call? (dialect.withLongNames long) (s.takeWhile isLetter)
        (s.dropWhile isLetter) = some g := hcall
    rw [hcall']
    exact h
  · split at h <;> simp at h

end Identifier

/-! ## Texts of single names -/

/-- Texts whose names are single letters, though runs of letters are names. -/
def SingleNames (s : List Char) : Prop :=
  ∀ letters, Lexeme.name letters ∈ words (dialect.withLongNames true) s → letters.length = 1

/-- A rest of a text whose names are single letters is one. -/
theorem SingleNames.mono {dialect : Dialect} {s t : List Char} (h : SingleNames dialect s)
    (hwords : words (dialect.withLongNames true) t <:+ words (dialect.withLongNames true) s) :
    SingleNames dialect t :=
  fun letters hletters => h letters (hwords.subset hletters)

/-- A character that is no letter is no name. -/
theorem singleNames_cons_iff {dialect : Dialect} {c : Char} (hc : isLetter c = false)
    {s : List Char} : SingleNames dialect (c :: s) ↔ SingleNames dialect s := by
  unfold SingleNames
  rw [words_symbol _ hc]

/-- A text whose names are single letters has the same identifiers whatever names are. -/
theorem SingleNames.read_eq {dialect : Dialect} {c : Char} (hc : isLetter c = true)
    {s : List Char} (h : SingleNames dialect (c :: s)) :
    Identifier.read (dialect.withLongNames false) (c :: s)
      = Identifier.read (dialect.withLongNames true) (c :: s) := by
  obtain ⟨word, rest, hread⟩ : ∃ word rest,
      Identifier.read (dialect.withLongNames true) (c :: s) = (word, rest) := ⟨_, _, rfl⟩
  cases word with
  | call f => exact (Identifier.read_call_withLongNames hread false).trans hread.symm
  | name letters =>
    have hlength : letters.length = 1 := by
      refine h letters ?_
      rw [words_name _ hc hread]
      exact List.mem_cons_self
    obtain ⟨rfl, rfl⟩ : letters = (c :: s).takeWhile isLetter ∧
        rest = (c :: s).dropWhile isLetter := Prod.mk.inj (Identifier.eq_of_read_name hread)
    -- the run of letters ends behind its first letter
    rw [List.takeWhile_cons_of_pos hc, List.length_cons, Nat.add_eq_right,
      List.length_eq_zero_iff, List.takeWhile_eq_nil_iff] at hlength
    have hlone : ∀ b ∈ s.head?, isLetter b = false := by
      intro b hb
      obtain ⟨tail, rfl⟩ := List.head?_eq_some_iff.1 hb
      simpa using hlength (Nat.succ_pos _)
    rw [Identifier.read_of_lone hc hlone, Identifier.read_of_lone hc hlone]

/-- Where the names are single letters, the lexemes do not depend on what names are. -/
theorem SingleNames.lexemes_eq {dialect : Dialect} {s : List Char} (h : SingleNames dialect s) :
    lexemes (dialect.withLongNames false) s = lexemes (dialect.withLongNames true) s := by
  fun_induction lexemes (dialect.withLongNames true) s with
  | case1 => exact lexemes_nil _
  | case2 c rest hc f after hread ih =>
    obtain ⟨inside, rfl⟩ := Identifier.exists_of_read_call hread
    have hinside : SingleNames dialect inside := by
      refine h.mono ?_
      rw [words_call _ hc hread]
      exact List.suffix_cons _ _
    rw [lexemes_of_call _ hc ((h.read_eq hc).trans hread), List.tail_cons]
    exact congrArg _ (ih hinside)
  | case3 c rest hc letters after hread ih =>
    have hafter : SingleNames dialect after := by
      refine h.mono ?_
      rw [words_name _ hc hread]
      exact List.suffix_cons _ _
    rw [lexemes_of_name _ hc ((h.read_eq hc).trans hread), ih hafter]
  | case4 c rest hc ih =>
    rw [Bool.not_eq_true] at hc
    rw [lexemes_of_symbol _ hc, ih ((singleNames_cons_iff hc).1 h)]

/-! ## Marked texts -/

/-- Marks are no names. -/
theorem SingleNames.seam {dialect : Dialect} {t : List Char} (h : SingleNames dialect t)
    (previous : Char) (s : List Char) :
    SingleNames dialect (seam (dialect.withLongNames false) previous s ++ t) := by
  rcases seam_eq_or (dialect.withLongNames false) previous s with hseam | ⟨hseam, -⟩
  · rwa [hseam, List.nil_append]
  · rw [hseam]
    exact (singleNames_cons_iff isLetter_invisibleTimes).2 h

/-- **In the marked text of a dialect of single letters all names are single letters**, even
where runs of letters are names: a name is followed by no letter. -/
theorem singleNames_withMarks (himplied : dialect.impliedProducts = true) (s : List Char) :
    SingleNames dialect (withMarks (dialect.withLongNames false) s) := by
  fun_induction lexemes (dialect.withLongNames false) s with
  | case1 =>
    rw [withMarks_nil]
    intro letters hletters
    rw [words, lexemes_nil] at hletters
    exact absurd hletters List.not_mem_nil
  | case2 c rest hc f after hread ih =>
    obtain ⟨inside, rfl⟩ := Identifier.exists_of_read_call hread
    obtain ⟨tail, hmarked, hread'⟩ := Identifier.read_of_call _ hread
      (withMarks (dialect.withLongNames false) inside)
    have hlong : Identifier.read (dialect.withLongNames true) (c :: tail) = (.call f, _) :=
      Identifier.read_call_withLongNames hread' true
    rw [withMarks_call _ hc hread, hmarked]
    intro letters hletters
    rw [words_call _ hc hlong] at hletters
    rcases List.mem_cons.1 hletters with hcall | hletters
    · simp at hcall
    · exact ih letters hletters
  | case3 c rest hc letters after hread ih =>
    obtain ⟨rfl, rfl⟩ : letters = [c] ∧ after = rest :=
      Prod.mk.inj (Identifier.eq_of_read_name hread)
    -- the name is followed by a mark, or by what begins with no letter
    have hdetached := Respelling.detached_behind_name (dialect.withLongNames false) himplied hc
      after
    have hlone : Identifier.read (dialect.withLongNames true) (c :: _) = (.name [c], _) :=
      Identifier.read_of_lone hc fun b hb => (hdetached b hb).1
    have hlast : [c].getLast? = some c := rfl
    rw [withMarks_name _ hc hread hlast, List.singleton_append]
    intro letters hletters
    rw [words_name _ hc hlone] at hletters
    rcases List.mem_cons.1 hletters with hname | hletters
    · rw [Lexeme.name.inj hname]
      rfl
    · exact ih.seam c after letters hletters
  | case4 c rest hc ih =>
    rw [Bool.not_eq_true] at hc
    rw [withMarks_symbol _ hc]
    exact (singleNames_cons_iff hc).2 (ih.seam c rest)

/-- **A normal form with single names is its own normal form**, though runs of letters are
names. -/
theorem normalChars_withLongNames (himplied : dialect.impliedProducts = true) (s : List Char) :
    normalChars (dialect.withLongNames true) (normalChars (dialect.withLongNames false) s)
      = normalChars (dialect.withLongNames false) s := by
  have hspell : ∀ xs, spell (dialect.withLongNames true) xs
      = spell (dialect.withLongNames false) xs := spell_congr rfl
  have hmarked := withMarks_withMarks (dialect.withLongNames false) (withoutBlanks s)
  rw [normalChars_eq (dialect.withLongNames true), withoutBlanks_normalChars, withMarks,
    normalChars_eq, ← (singleNames_withMarks dialect himplied _).lexemes_eq, hspell]
  exact hmarked

/-! ## Outcomes -/

/-- A text with single names mirrors itself whatever names are. -/
theorem mirrors_withLongNames (s : List Char) :
    Mirrors id (Page.ofText (dialect.withLongNames true) s)
      (Page.ofText (dialect.withLongNames false) s)
      (fun r r' => r' = r ∧ SingleNames dialect r) where
  respelling := Respelling.refl
  limit := rfl
  position := by
    rintro r r' ⟨rfl, -⟩
    rfl
  nil := by
    rintro r' ⟨rfl, -⟩
    rfl
  advance := by
    rintro q r r' ⟨rfl, hnames⟩ hq
    exact ⟨r, by rw [List.map_id], rfl, hnames.mono hq.words⟩
  descend := by
    rintro r r' ⟨rfl, hnames⟩
    exact ⟨r, rfl, rfl, (singleNames_cons_iff (by decide)).1 hnames⟩
  close := by
    rintro r r' ⟨rfl, -⟩
    exact ⟨r, rfl⟩
  unclosed := by
    rintro r r' ⟨rfl, -⟩ hindex
    exact hindex
  identifier := by
    rintro c r r' ⟨rfl, hnames⟩ hc
    exact congrArg Prod.fst (hnames.read_eq hc)
  literal := by
    intro content rest r' _ _
    rw [List.map_id]

/-- **A text with single names is read alike whatever names are.** -/
theorem Formula.read_withLongNames {dialect : Dialect} {s : List Char}
    (h : SingleNames dialect s) :
    read (dialect.withLongNames false) s = read (dialect.withLongNames true) s := by
  have hread := (mirrors_withLongNames dialect s).read_eq ⟨rfl, h⟩
    fun r r' hr => by rw [hr.1, List.map_id]
  rw [hread]
  cases read (dialect.withLongNames true) s with
  | error fault => exact congrArg Except.error fault.mapText_id
  | ok f => rfl

/-- **The evaluation of a text is that of its normal form**, in which runs of letters may be
names. -/
theorem Evaluation.of_withLongNames {dialect : Dialect}
    (himplied : dialect.impliedProducts = true) (bindings : Bindings) (text : String) :
    Evaluation.of (dialect.withLongNames true) bindings
        (normalize (dialect.withLongNames false) text)
      = Evaluation.of (dialect.withLongNames false) bindings text := by
  unfold Evaluation.of Formula.readAndEvaluate
  simp only [normalize, String.toList_ofList, normalChars_withLongNames dialect himplied]
  rw [Formula.read_withLongNames (s := normalChars (dialect.withLongNames false) text.toList)
    (singleNames_withMarks dialect himplied _)]

namespace Calculator

/-- The calculator in whose dialect a run of letters is one name, or each letter is. -/
def withLongNames (c : Calculator) (long : Bool) : Calculator :=
  { c with dialect := c.dialect.withLongNames long }

/-- **The dialect of single letters translates into the one of long names.** Where products
are implied, the normal form of a text with single names has the outcome of the text where
runs of letters are names: the same normal form, tree and value, or the same fault. It has the
same variables, too. -/
theorem evaluate_withLongNames {c : Calculator} (himplied : c.dialect.impliedProducts = true)
    (bindings : Bindings) (text : String) :
    ((c.withLongNames true).evaluate bindings
          (normalize (c.withLongNames false).dialect text)).map last
        = ((c.withLongNames false).evaluate bindings text).map last ∧
      variableNames (c.withLongNames true).dialect
          (normalize (c.withLongNames false).dialect text)
        = variableNames (c.withLongNames false).dialect text := by
  constructor
  · have hof := Evaluation.of_withLongNames himplied bindings text
    unfold evaluate
    simp only [withLongNames, hof]
    cases Evaluation.of (c.dialect.withLongNames false) bindings text <;> rfl
  · have hnames := singleNames_withMarks c.dialect himplied (withoutBlanks text.toList)
    simp only [variableNames, withLongNames, normalize, String.toList_ofList,
      normalChars_withLongNames c.dialect himplied]
    rw [normalChars_eq, hnames.lexemes_eq]

/-- A product of letters, and a run of letters that ends in the name of a function. -/
theorem evaluate_withLongNames_letters :
    ((withLongNames {} true).evaluate (.ofList [("x", ⟨2, 0⟩), ("y", ⟨3, 0⟩)])
          "2\u2062x\u2062y").map last
        = .ok (some ⟨"2\u2062x\u2062y", .ofList [("x", ⟨2, 0⟩), ("y", ⟨3, 0⟩)],
            .binary .mul (.binary .mul (.leaf "2") (.leaf "x")) (.leaf "y"), ⟨12, 0⟩⟩) ∧
      variableNames (withLongNames {} true).dialect
          "x\u2062y\u2062c\u2062o\u2062s\u2062sin(x\u2062y)"
        = ["x", "y", "c", "o", "s"] := by
  obtain ⟨hproduct, hvalue, hrun, hnames⟩ :
      normalize (withLongNames {} false).dialect "2xy" = "2\u2062x\u2062y" ∧
        ((withLongNames {} false).evaluate (.ofList [("x", ⟨2, 0⟩), ("y", ⟨3, 0⟩)]) "2xy").map
            last
          = .ok (some ⟨"2\u2062x\u2062y", .ofList [("x", ⟨2, 0⟩), ("y", ⟨3, 0⟩)],
              .binary .mul (.binary .mul (.leaf "2") (.leaf "x")) (.leaf "y"), ⟨12, 0⟩⟩) ∧
        normalize (withLongNames {} false).dialect "xycossin(xy)"
          = "x\u2062y\u2062c\u2062o\u2062s\u2062sin(x\u2062y)" ∧
        variableNames (withLongNames {} false).dialect "xycossin(xy)"
          = ["x", "y", "c", "o", "s"] := by
    decide +kernel
  have himplied : (Calculator.mk {} none).dialect.impliedProducts = true := rfl
  have hfirst := (evaluate_withLongNames himplied (.ofList [("x", ⟨2, 0⟩), ("y", ⟨3, 0⟩)])
    "2xy").1
  have hsecond := (evaluate_withLongNames himplied .empty "xycossin(xy)").2
  rw [hproduct] at hfirst
  rw [hrun] at hsecond
  exact ⟨hfirst.trans hvalue, hsecond.trans hnames⟩

end Calculator

end ComplexFormula
