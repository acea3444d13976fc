/-
# Formulas in parentheses

What parentheses around a whole formula do to its value. One more level of nesting is needed,
and the value stays the same, unless the content is a literal: then the two ways of reading
it have to agree.

* `normalChars_enclosed` : the normal form of a text in parentheses;
* `Calculator.evaluate_enclosed` : the value of a text in parentheses;
* `Calculator.evaluate_enclosed_literal` : a literal in parentheses is one operand.
-/
import ComplexFormula.Proofs.Grammar.Limit
import ComplexFormula.Proofs.Grammar.Literals
import ComplexFormula.Proofs.ImpliedProducts

namespace ComplexFormula

/-! ## The normal form -/

/-- A text in parentheses. -/
def enclosed (s : List Char) : List Char := '(' :: (s ++ [')'])

/-- **The normal form of a text in parentheses** is that of the text, in parentheses. -/
theorem normalChars_enclosed (dialect : Dialect) (s : List Char) :
    normalChars dialect (enclosed s) = enclosed (normalChars dialect s) := by
  have hblanks : withoutBlanks (enclosed s) = '(' :: (withoutBlanks s ++ [')']) := by
    rw [enclosed, withoutBlanks, List.filter_cons_of_pos (by decide), List.filter_append]
    rfl
  have hopen : ∀ t, withMarks dialect ('(' :: t) = '(' :: withMarks dialect t := fun t =>
    withMarks_start dialect (by decide) (by decide) (by decide) t
  have hclose : withMarks dialect [')'] = [')'] := by
    rw [withMarks_symbol dialect (by decide), seam_of_detached dialect detached_nil, withMarks_nil]
    rfl
  rw [normalChars_eq, hblanks, hopen, withMarks_append dialect (detached_close []), hclose]
  rfl

/-! ## One more level -/

/-- The dialect in which one more level may be opened. -/
def Dialect.deeper (dialect : Dialect) : Dialect :=
  { dialect with nestingLimit := dialect.nestingLimit + 1 }

/-- The calculator whose formulas may be nested by one more level. -/
def Calculator.deeper (c : Calculator) : Calculator := { c with dialect := c.dialect.deeper }

/-- The normal form does not depend on the levels. -/
theorem normalChars_deeper (dialect : Dialect) (s : List Char) :
    normalChars dialect.deeper s = normalChars dialect s :=
  normalChars_withLimit dialect _ s

/-- A derivation does not depend on the levels that may be opened. -/
theorem Derives.deeper {dialect : Dialect} {X : Precedence} {depth : Nat} {f : Formula}
    {s rest : List Char} (h : Derives dialect X depth f s rest) :
    Derives dialect.deeper X depth f s rest :=
  h.withLimit _

/-! ## The derivation -/

/-- The content of a text in parentheses that is no literal is derived there. -/
theorem Derives.enclosed_of_derives {dialect : Dialect} {depth : Nat} {f : Formula}
    {s : List Char} (h : Derives dialect .sum depth f s [])
    (hliteral : ∀ z, Complex.ofLiteral (literalText s) ≠ .ok z) :
    Derives dialect .sum (depth + 1) f (enclosed s) [] :=
  (Derives.group hliteral (h.append (.close []))).of_tighter (by decide)

/-- A literal in parentheses is derived as one operand. -/
theorem Derives.enclosed_of_ofLiteral (dialect : Dialect) {s : List Char} {z : Complex}
    (h : Complex.ofLiteral (literalText s) = .ok z) :
    Derives dialect .sum 1 (.leaf (.constant (literalText s) z)) (enclosed s) [] :=
  (Derives.literal h).of_tighter (by decide)

/-! ## The value -/

/-- The characters of a text in parentheses. -/
theorem toList_enclosed (text : String) :
    ("(" ++ text ++ ")").toList = enclosed text.toList := by
  rw [String.toList_append, String.toList_append]
  rfl

namespace Calculator

/-- **The value of a text in parentheses.** If a text has a value, so has the text in
parentheses, with one more level of nesting. Where the content is a literal its value is that
of the literal, and otherwise that of the text. The two are the same number, unless the content
is a literal from which marks of products other than those before an imaginary unit are
dropped; where the imaginary part of a literal is too large for a float, the real parts may
differ too. -/
theorem evaluate_enclosed {c c' : Calculator} {bindings : Bindings} {text : String}
    {v : Complex} (h : c.evaluate bindings text = .ok c') (hv : c'.value? = some v) :
    ∃ d w, c.deeper.evaluate bindings ("(" ++ text ++ ")") = .ok d ∧ d.value? = some w ∧
      (∀ z, Complex.ofLiteral (literalText (normalChars c.dialect text.toList)) = .ok z →
        w = z) ∧
      ((∀ z, Complex.ofLiteral (literalText (normalChars c.dialect text.toList)) ≠ .ok z) →
        w = v) ∧
      (marksUnits (normalChars c.dialect text.toList) = true →
        sameNumber w.im v.im = true ∧ (w.im.isFinite = true → sameNumber w.re v.re = true)) := by
  obtain ⟨e, he, rfl⟩ := evaluate_eq_ok_iff.1 h
  obtain ⟨depth, f, z, hdepth, hderives, hz, rfl⟩ := Evaluation.of_eq_ok_iff.1 he
  obtain rfl := Option.some.inj hv
  have hnormal : normalChars c.deeper.dialect ("(" ++ text ++ ")").toList
      = enclosed (normalChars c.dialect text.toList) := by
    rw [toList_enclosed, deeper, normalChars_deeper, normalChars_enclosed]
  have hvalue : ∀ {depth' g w}, depth' ≤ c.dialect.nestingLimit + 1 →
      Derives c.deeper.dialect .sum depth' g (enclosed (normalChars c.dialect text.toList)) [] →
      g.HasValue bindings w →
      ∃ d, c.deeper.evaluate bindings ("(" ++ text ++ ")") = .ok d ∧ d.value? = some w := by
    intro depth' g w hdepth' hg hw
    rw [← hnormal] at hg
    have he := Evaluation.of_eq_ok_iff.2 ⟨depth', g, w, hdepth', hg, hw, rfl⟩
    exact ⟨_, evaluate_eq_ok_iff.2 ⟨_, he, rfl⟩, rfl⟩
  by_cases hliteral :
      ∃ w, Complex.ofLiteral (literalText (normalChars c.dialect text.toList)) = .ok w
  · obtain ⟨w, hw⟩ := hliteral
    obtain ⟨d, hd, hdw⟩ := hvalue (Nat.succ_le_succ (Nat.zero_le _))
      (Derives.enclosed_of_ofLiteral _ hw) (.leaf (leafValue?_of_ofLiteral hw bindings))
    refine ⟨d, w, hd, hdw, ?_, ?_, ?_⟩
    · intro z' hz'
      rw [hw] at hz'
      exact Except.ok.inj hz'
    · intro hnone
      exact absurd hw (hnone w)
    · intro hmarks
      -- a normal form has no blanks, so the literal is what the marks leave
      have hbare : Complex.IsLiteral (withoutMarks (normalChars c.dialect text.toList)) w := by
        rw [Complex.ofLiteral, literalText, String.toList_ofList, withoutBlanks_of_forall
          fun x hx => isBlank_of_mem_normalChars (List.mem_filter.1 hx).1] at hw
        exact Complex.ofBareLiteral_eq_ok_iff.1 hw
      obtain ⟨hre, him⟩ := agrees_of_isLiteral hderives hz hbare hmarks
      exact ⟨sameNumber_of_worth_eq him.symm,
        fun hfinite => sameNumber_of_worth_eq (hre hfinite).symm⟩
  · have hnone : ∀ w,
        Complex.ofLiteral (literalText (normalChars c.dialect text.toList)) ≠ .ok w :=
      fun w hw => hliteral ⟨w, hw⟩
    obtain ⟨d, hd, hdw⟩ := hvalue (Nat.succ_le_succ hdepth)
      (hderives.deeper.enclosed_of_derives hnone) hz
    refine ⟨d, z, hd, hdw, fun w hw => absurd hw (hnone w), fun _ => rfl, fun _ => ?_⟩
    exact ⟨sameNumber_of_worth_eq rfl, fun _ => sameNumber_of_worth_eq rfl⟩

/-- A difference with an imaginary part has the same value in parentheses. -/
theorem evaluate_enclosed_difference :
    ∃ d w, (deeper {}).evaluate .empty ("(" ++ "2-3i" ++ ")") = .ok d ∧ d.value? = some w ∧
      sameNumber w.im (-3) = true ∧ sameNumber w.re 2 = true := by
  have hvalue : evaluate {} .empty "2-3i" =
      .ok ⟨{}, some ⟨normalize {} "2-3i", .empty,
        .binary .sub (.leaf "2") (.binary .mul (.leaf "3") (.leaf "i")), ⟨2, -3⟩⟩⟩ := by
    decide +kernel
  obtain ⟨d, w, hd, hw, hliteral, -, hsame⟩ := evaluate_enclosed hvalue rfl
  obtain ⟨him, hre⟩ := hsame (by decide +kernel)
  obtain rfl : w = ⟨2, -3⟩ := hliteral ⟨2, -3⟩ (by decide +kernel)
  exact ⟨d, _, hd, hw, him, hre (by decide +kernel)⟩

/-- Outside of parentheses `1e5` is a product with the variable `e`, and a mark of a product
that was typed between digits is not dropped. -/
theorem evaluate_enclosed_ne :
    (evaluate {} (.ofList [("e", ⟨2, 0⟩)]) "1e5").toOption.bind value? = some ⟨10, 0⟩ ∧
      ((deeper {}).evaluate (.ofList [("e", ⟨2, 0⟩)]) "(1e5)").toOption.bind value?
        = some ⟨100000, 0⟩ ∧
      sameNumber 100000 10 = false ∧
      (evaluate {} .empty "1\u20622").toOption.bind value? = some ⟨2, 0⟩ ∧
      ((deeper {}).evaluate .empty "(1\u20622)").toOption.bind value? = some ⟨12, 0⟩ ∧
      sameNumber 12 2 = false := by
  decide +kernel

end Calculator

/-! ## Literals in parentheses -/

/-- A literal has no marks of products, so none but those of its normal form are dropped. -/
theorem literalText_normalChars_of_ofLiteral (dialect : Dialect) {text : String} {z : Complex}
    (h : Complex.ofLiteral text = .ok z) :
    literalText (normalChars dialect text.toList)
      = String.ofList (withoutBlanks text.toList) := by
  rw [normalChars_eq, literalText_withMarks, literalText, List.filter_eq_self.2]
  intro c hc
  rw [bne_iff_ne]
  rintro rfl
  exact absurd (Complex.isLiteralChar_of_ofBareLiteral h _ hc) (by decide)

/-- A literal without its blanks has the value of the literal. -/
theorem Complex.ofLiteral_withoutBlanks (text : String) :
    ofLiteral (String.ofList (withoutBlanks text.toList)) = ofLiteral text := by
  rw [ofLiteral, String.toList_ofList, ofLiteral,
    withoutBlanks_of_forall fun c hc => by simpa using (List.mem_filter.1 hc).2]

namespace Calculator

/-- **A literal in parentheses is one operand.** Where at least one level may be opened, its
value is exactly that of the literal and its tree the leaf of the literal without blanks,
whatever products the dialect implies in it and whatever names are bound. -/
theorem evaluate_enclosed_literal {c : Calculator} {text : String} {z : Complex}
    (h : Complex.ofLiteral text = .ok z) (hlimit : 1 ≤ c.dialect.nestingLimit)
    (bindings : Bindings) :
    ∃ d, c.evaluate bindings ("(" ++ text ++ ")") = .ok d ∧ d.value? = some z ∧
      d.tree? = some (.leaf (String.ofList (withoutBlanks text.toList))) := by
  have htext := literalText_normalChars_of_ofLiteral c.dialect h
  have hliteral : Complex.ofLiteral (literalText (normalChars c.dialect text.toList)) = .ok z := by
    rw [htext, Complex.ofLiteral_withoutBlanks, h]
  have hderives := Derives.enclosed_of_ofLiteral c.dialect hliteral
  rw [← normalChars_enclosed, ← toList_enclosed] at hderives
  have he := Evaluation.of_eq_ok_iff.2
    ⟨1, _, z, hlimit, hderives, .leaf (leafValue?_of_ofLiteral hliteral bindings), rfl⟩
  refine ⟨_, evaluate_eq_ok_iff.2 ⟨_, he, rfl⟩, rfl, ?_⟩
  show some (Formula.tree _) = _
  rw [Formula.tree_leaf, ← htext]
  rfl

/-- The exponents and the imaginary unit of a literal may be names that are bound, and marks of
products are put before and behind them. -/
theorem evaluate_enclosed_literal_exponents :
    normalize { nestingLimit := 1 } "( 2E+1 - 1e1 I )" = "(2\u2062E+1-1\u2062e\u20621\u2062I)" ∧
      ∃ d, evaluate { dialect := { nestingLimit := 1 } }
          (.ofList [("e", ⟨2, 0⟩), ("E", ⟨3, 0⟩), ("I", ⟨7, 0⟩)])
          ("(" ++ " 2E+1 - 1e1 I " ++ ")") = .ok d ∧
        d.value? = some ⟨20, -10⟩ ∧ d.tree? = some (.leaf "2E+1-1e1I") := by
  obtain ⟨hmarks, hliteral, htext⟩ :
      normalize { nestingLimit := 1 } "( 2E+1 - 1e1 I )"
          = "(2\u2062E+1-1\u2062e\u20621\u2062I)" ∧
        Complex.ofLiteral " 2E+1 - 1e1 I " = .ok ⟨20, -10⟩ ∧
        String.ofList (withoutBlanks " 2E+1 - 1e1 I ".toList) = "2E+1-1e1I" := by
    decide +kernel
  obtain ⟨d, hd, hvalue, htree⟩ :=
    @evaluate_enclosed_literal { dialect := { nestingLimit := 1 } } _ _ hliteral (Nat.le_refl 1)
      (.ofList [("e", ⟨2, 0⟩), ("E", ⟨3, 0⟩), ("I", ⟨7, 0⟩)])
  exact ⟨hmarks, d, hd, hvalue, htext ▸ htree⟩

end Calculator

end ComplexFormula
