/-
# Implied products are products

The mark of an implied product may be replaced by the sign of a product: the formula of the
text stays the same, and so do the faults up to the texts that they quote. Only a literal in
parentheses loses its marks, and would not lose the signs.

* `respelling_explicitProduct` : the exchange keeps all operators;
* `normalChars_explicit` : the text with signs is its own normal form;
* `Calculator.outcome_explicit` : it has the outcome of the text.
-/
import ComplexFormula.Proofs.Enclosed
import ComplexFormula.Proofs.Grammar.Mirror

namespace ComplexFormula

/-! ## The exchange -/

/-- Exchanges the mark of an implied product for the sign of a product. -/
def explicitProduct (c : Char) : Char := if c = invisibleTimes then '*' else c

/-- A mark and a sign spell the same operator. -/
theorem respelling_explicitProduct : Respelling explicitProduct where
  operator c := by
    by_cases hc : c = invisibleTimes
    · subst hc
      rfl
    · rw [explicitProduct, if_neg hc]
  fixed {c} h := by
    rw [explicitProduct, if_neg]
    rintro rfl
    exact absurd h (by decide)

/-- A normal form with the implied products written out. -/
def explicitChars (dialect : Dialect) (s : List Char) : List Char :=
  (normalChars dialect s).map explicitProduct

/-- **A normal form with the implied products written out is its own normal form.** -/
theorem normalChars_explicit (dialect : Dialect) (s : List Char) :
    normalChars dialect (explicitChars dialect s) = explicitChars dialect s := by
  have hblank : ∀ c, isBlank (explicitProduct c) = isBlank c :=
    respelling_explicitProduct.congr fun c op hop => isBlank_of_ofChar? hop
  have hblanks : withoutBlanks (explicitChars dialect s) = explicitChars dialect s := by
    refine withoutBlanks_of_forall fun c hc => ?_
    obtain ⟨x, hx, rfl⟩ := List.mem_map.1 hc
    rw [hblank]
    exact isBlank_of_mem_normalChars hx
  rw [normalChars_eq, hblanks]
  exact respelling_explicitProduct.withMarks_map dialect (withoutBlanks s)

/-! ## Groups -/

/-- No parentheses of a text enclose a literal from which marks of products are dropped. -/
def NoMarkedLiteral (s : List Char) : Prop :=
  ∀ content, enclosed content <:+: s → Balanced content → invisibleTimes ∈ content →
    ∀ z, Complex.ofLiteral (literalText content) ≠ .ok z

/-- A group in which a product is written out is no literal. -/
theorem groupLiteral?_explicit {content : List Char} (h : invisibleTimes ∈ content) :
    Reader.groupLiteral? (content.map explicitProduct) = none := by
  rcases groupLiteral?_eq (content.map explicitProduct) with ⟨value, hvalue, -⟩ | ⟨-, hnone⟩
  · have hsign : '*' ∈ withoutBlanks (literalText (content.map explicitProduct)).toList := by
      have hmem : '*' ∈ content.map explicitProduct :=
        List.mem_map.2 ⟨invisibleTimes, h, rfl⟩
      rw [literalText, String.toList_ofList]
      exact List.mem_filter.2 ⟨List.mem_filter.2 ⟨hmem, by decide⟩, by decide⟩
    exact absurd (Complex.isLiteralChar_of_ofBareLiteral hvalue '*' hsign) (by decide)
  · exact hnone

/-- Where the marks are written out, the same groups are literals, if none of them loses
marks. -/
theorem groupLiteral?_map_explicit {content : List Char}
    (h : invisibleTimes ∈ content →
      ∀ z, Complex.ofLiteral (literalText content) ≠ .ok z) :
    Reader.groupLiteral? (content.map explicitProduct) = Reader.groupLiteral? content := by
  by_cases hmark : invisibleTimes ∈ content
  · rw [groupLiteral?_explicit hmark]
    rcases groupLiteral?_eq content with ⟨value, hvalue, -⟩ | ⟨-, hnone⟩
    · exact absurd hvalue (h hmark value)
    · exact hnone.symm
  · have hfixed : content.map explicitProduct = content := by
      refine (List.map_congr_left fun c hc => ?_).trans (List.map_id content)
      rw [explicitProduct, if_neg]
      · rfl
      · rintro rfl
        exact hmark hc
    rw [hfixed]

/-! ## Outcomes -/

/-- The rests of a normal form are mirrored by those of the text with the products written
out. -/
theorem mirrors_explicit {dialect : Dialect} {s : List Char} (hs : NoMarkedLiteral s) :
    Mirrors explicitProduct (Page.ofText dialect s)
      (Page.ofText dialect (s.map explicitProduct))
      (fun r r' => r' = r.map explicitProduct ∧ r <:+ s) where
  respelling := respelling_explicitProduct
  limit := rfl
  position := by
    rintro r r' ⟨rfl, -⟩
    simp [Page.position, Page.ofText]
  nil := by
    rintro r' ⟨rfl, -⟩
    rfl
  advance := by
    rintro q r r' ⟨rfl, hsuffix⟩ -
    exact ⟨_, List.map_append, rfl, (List.suffix_append q r).trans hsuffix⟩
  descend := by
    rintro r r' ⟨rfl, hsuffix⟩
    exact ⟨_, rfl, rfl, (List.suffix_cons '(' r).trans hsuffix⟩
  close := by
    rintro r r' ⟨rfl, -⟩
    exact ⟨_, rfl⟩
  unclosed := by
    rintro r r' ⟨rfl, -⟩ hindex
    exact respelling_explicitProduct.closingIndex?_map hindex
  identifier := by
    rintro c r r' ⟨rfl, -⟩ hc
    have hread := respelling_explicitProduct.read_map dialect hc r
    simp only [Page.ofText, hread]
  literal := by
    rintro content rest r' ⟨-, hsuffix⟩ hcontent
    refine groupLiteral?_map_explicit fun hmark => hs content ?_ hcontent hmark
    have hfront : enclosed content <+: '(' :: (content ++ ')' :: rest) :=
      ⟨rest, by simp [enclosed]⟩
    exact hfront.isInfix.trans hsuffix.isInfix

namespace Calculator

/-- **Implied products are products.** Unless a literal in parentheses loses marks of
products, the normal form of a text with all marks replaced by signs has the outcome of the
text: the same tree and value, or the same fault at the same position, in which the marks of
the quoted text are replaced as well. -/
theorem outcome_explicit {c : Calculator} {text : String}
    (h : NoMarkedLiteral (normalChars c.dialect text.toList)) (bindings : Bindings) :
    c.outcome bindings ((normalize c.dialect text).map explicitProduct)
      = (c.outcome bindings text).mapError (FormulaError.mapText explicitProduct) := by
  have htext : ((normalize c.dialect text).map explicitProduct).toList
      = explicitChars c.dialect text.toList := by
    rw [normalize, map_ofList, String.toList_ofList]
    rfl
  have hread := (@mirrors_explicit c.dialect _ h).read_eq ⟨rfl, List.suffix_rfl⟩
    fun _ _ hr => hr.1
  rw [outcome_eq, outcome_eq, htext, normalChars_explicit, explicitChars,
    readAndEvaluate_of_read_eq hread]
  cases Formula.readAndEvaluate c.dialect bindings (normalChars c.dialect text.toList) <;> rfl

/-- A product that is marked in parentheses may be written out where the content is no literal,
and a quoted text has its signs. -/
theorem outcome_explicit_group :
    outcome {} (.ofList [("x", ⟨2, 0⟩)]) "2*(3*x+1)"
        = .ok (some (.binary .mul (.leaf "2")
            (.binary .add (.binary .mul (.leaf "3") (.leaf "x")) (.leaf "1"))), some ⟨14, 0⟩) ∧
      outcome {} .empty "2)*3*x"
        = .error (.malformed (.unexpectedText 1 ")*3*x")) := by
  obtain ⟨hnormal, hgroup, hnormal', hquoted, hchars, hchars', hopen, hliteral⟩ :
      (normalize {} "2(3x+1)").map explicitProduct = "2*(3*x+1)" ∧
        outcome {} (.ofList [("x", ⟨2, 0⟩)]) "2(3x+1)"
          = .ok (some (.binary .mul (.leaf "2")
              (.binary .add (.binary .mul (.leaf "3") (.leaf "x")) (.leaf "1"))), some ⟨14, 0⟩) ∧
        (normalize {} "2)3x").map explicitProduct = "2)*3*x" ∧
        outcome {} .empty "2)3x"
          = .error (.malformed (.unexpectedText 1 ")\u20623\u2062x")) ∧
        normalChars {} "2(3x+1)".toList = "2\u2062(3\u2062x+1)".toList ∧
        normalChars {} "2)3x".toList = "2)\u20623\u2062x".toList ∧
        '(' ∉ "2)\u20623\u2062x".toList ∧
        (Complex.ofLiteral (literalText "3\u2062x+1".toList)).toOption = none := by
    decide +kernel
  have hmarked : NoMarkedLiteral (normalChars {} "2(3x+1)".toList) := by
    rintro content ⟨front, back, hwithin⟩ hcontent -
    -- the only parenthesis that opens stands behind the first mark
    have hsplit : front ++ '(' :: (content ++ ')' :: back)
        = ['2', '\u2062'] ++ '(' :: ("3\u2062x+1".toList ++ ')' :: []) := by
      rw [hchars] at hwithin
      simpa [enclosed] using hwithin
    obtain ⟨-, -, hinside⟩ :=
      (List.append_cons_inj_of_notMem (by decide) (by decide)).1 hsplit.symm
    have hbalanced : Balanced "3\u2062x+1".toList :=
      Balanced.of_not_mem (by decide) (by decide)
    obtain rfl := hbalanced.eq_of_append_close hcontent hinside
    intro z hz
    rw [hz] at hliteral
    simp [Except.toOption] at hliteral
  have hmarked' : NoMarkedLiteral (normalChars {} "2)3x".toList) := by
    intro content hwithin
    rw [hchars'] at hwithin
    exact absurd (hwithin.subset List.mem_cons_self) hopen
  have hfirst := @outcome_explicit {} _ hmarked (.ofList [("x", ⟨2, 0⟩)])
  have hsecond := @outcome_explicit {} _ hmarked' .empty
  rw [hnormal, hgroup] at hfirst
  rw [hnormal', hquoted] at hsecond
  exact ⟨hfirst, hsecond.trans (by decide +kernel)⟩

/-- A literal in parentheses loses its marks, and would not lose the signs. -/
example : (outcome {} .empty "2(3i)").toOption
      = some (some (.binary .mul (.leaf "2") (.leaf "3i")), some ⟨0, 6⟩) ∧
    (outcome {} .empty "2*(3*i)").toOption
      = some (some (.binary .mul (.leaf "2") (.binary .mul (.leaf "3") (.leaf "i"))),
          some ⟨0, 6⟩) := by
  decide +kernel

end Calculator

end ComplexFormula
