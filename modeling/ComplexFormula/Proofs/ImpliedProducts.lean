/-
# Implied products are an extension

A formula that is written without implied products is read in the same way where they are
allowed: marks are put only into groups that are literals, from which they are dropped again.

* `Derives.withProducts` : a derivation does not depend on implied products;
* `Derives.marked` : what is derived from a text is derived from the marked text;
* `Calculator.evaluate_withProducts` : a value stays the same when implied products are
  switched on.
-/
import ComplexFormula.Proofs.Evaluation
import ComplexFormula.Proofs.Seams

namespace ComplexFormula

/-! ## Derivations with and without implied products -/

/-- The dialect with implied products switched on or off. -/
def Dialect.withProducts (dialect : Dialect) (implied : Bool) : Dialect :=
  { dialect with impliedProducts := implied }

/-- **A derivation does not depend on implied products**, which only the normal form has. -/
theorem Derives.withProducts {dialect : Dialect} {X : Precedence} {depth : Nat} {f : Formula}
    {s rest : List Char} (h : Derives dialect X depth f s rest) (implied : Bool) :
    Derives (dialect.withProducts implied) X depth f s rest :=
  h.of_read (by intro s; rfl)

/-! ## Marks in a formula -/

section

variable (dialect : Dialect)

/-- A marked literal is the literal, because marks are dropped from it. -/
theorem literalText_withMarks (content : List Char) :
    literalText (withMarks dialect content) = literalText content := by
  have hfilter := @filter_spell (fun c => c != invisibleTimes) (by decide) dialect
    (lexemes dialect content)
  rw [literalText, literalText, withMarks, hfilter, flatMap_chars_lexemes]

/-- No product is implied inside a numeral. -/
theorem withMarks_numeral {run : List Char}
    (hrun : ∀ c ∈ run, Reader.isNumeralChar c = true) : withMarks dialect run = run := by
  induction run with
  | nil => exact withMarks_nil dialect
  | cons c run ih =>
    have hc := hrun c List.mem_cons_self
    have htail : ∀ x ∈ run, Reader.isNumeralChar x = true :=
      fun x hx => hrun x (List.mem_cons_of_mem c hx)
    have hseam : seam dialect c run = [] := by
      cases run with
      | nil => exact seam_of_detached dialect detached_nil c
      | cons x run =>
        -- a digit implies no product with a digit or a point
        have hx := htail x List.mem_cons_self
        have hopen : x ≠ '(' := by
          rintro rfl
          exact absurd hx (by decide)
        have hclose : c ≠ ')' := by
          rintro rfl
          exact absurd hc (by decide)
        simp [seam, impliesProduct, hopen, hclose, isLetter_of_isNumeralChar hc,
          isLetter_of_isNumeralChar hx]
    rw [withMarks_symbol dialect (isLetter_of_isNumeralChar hc), hseam, List.nil_append, ih htail]

/-- Where an operand ends at a closing parenthesis, it ends there in the marked text. -/
theorem withMarks_close {rest : List Char} (hrest : EndsOperand rest) :
    withMarks dialect (')' :: rest) = ')' :: withMarks dialect rest := by
  rw [withMarks_symbol dialect (by decide), seam_of_detached dialect hrest.detached,
    List.nil_append]

/-- A group whose operand ends behind it is marked inside and behind it. -/
theorem withMarks_group (content : List Char) {rest : List Char} (hrest : EndsOperand rest) :
    withMarks dialect ('(' :: content ++ ')' :: rest)
      = '(' :: withMarks dialect content ++ ')' :: withMarks dialect rest := by
  rw [List.cons_append, withMarks_start dialect (by decide) (by decide) (by decide),
    withMarks_append dialect (detached_close rest), withMarks_close dialect hrest,
    List.cons_append]

end

/-- **What is derived from a text is derived from the marked text**, if it is followed by what
ends an operand. -/
theorem Derives.marked {dialect : Dialect} {X : Precedence} {depth : Nat} {f : Formula}
    {s rest : List Char} (h : Derives dialect X depth f s rest) (hrest : EndsOperand rest) :
    Derives dialect X depth f (withMarks dialect s) (withMarks dialect rest) := by
  -- inside a derivation operands are followed by operators and closing parentheses, where no
  -- product is implied; only literals have neighbours that imply one
  induction h with
  | operand hX h ih => exact .operand hX (ih hrest)
  | chain hX hleft hop hright ihl ihr =>
    have hleft := ihl (.operator hop _)
    rw [withMarks_operator dialect hop] at hleft
    exact .chain hX hleft hop (ihr hrest)
  | negation h ih =>
    rw [withMarks_start dialect (by decide) (by decide) (by decide)]
    exact .negation (ih hrest)
  | root h ih =>
    rw [withMarks_start dialect isLetter_rootSign (by decide) (by decide)]
    exact .root (ih hrest)
  | @literal content rest value h =>
    rw [withMarks_group dialect content hrest, ← literalText_withMarks dialect content]
    rw [← literalText_withMarks dialect content] at h
    exact .literal h
  | @group depth f content rest hliteral h ih =>
    have hcontent := ih (.close rest)
    rw [withMarks_append dialect (detached_close rest), withMarks_close dialect hrest] at hcontent
    rw [withMarks_group dialect content hrest]
    refine .group (fun value => ?_) hcontent
    rw [literalText_withMarks]
    exact hliteral value
  | @call depth function c f s s' rest hc hread h ih =>
    have hargument := ih (.close rest)
    obtain ⟨tail, hmarked, hread'⟩ :=
      Identifier.read_of_call dialect hread (withMarks dialect s')
    rw [withMarks_close dialect hrest] at hargument
    rw [withMarks_call dialect hc hread, hmarked]
    exact .call hc hread' hargument
  | @name c s rest letters hc hread =>
    obtain ⟨last, hlast, -⟩ := Identifier.exists_last_of_read_name hc hread
    have hdetached : Detached (withMarks dialect rest) := by
      intro x hx
      rw [head?_withMarks] at hx
      exact hrest.detached x hx
    obtain ⟨tail, hmarked, hread'⟩ := Identifier.read_of_name dialect hc hread hdetached
    rw [withMarks_name dialect hc hread hlast, seam_of_detached dialect hrest.detached,
      List.nil_append, hmarked]
    exact .name hc hread'
  | @numeral run rest n hne hrun hmaximal hread =>
    rw [withMarks_append dialect hrest.detached, withMarks_numeral dialect hrun]
    refine .numeral hne hrun (fun c hc => hmaximal c ?_) hread
    rwa [head?_withMarks] at hc

/-! ## Values -/

namespace Calculator

/-- The calculator with implied products switched on or off. -/
def withProducts (c : Calculator) (implied : Bool) : Calculator :=
  { c with dialect := c.dialect.withProducts implied }

/-- **A value stays the same when implied products are switched on**, and so does the tree. -/
theorem evaluate_withProducts {c c' : Calculator} {bindings : Bindings} {text : String}
    (h : (c.withProducts false).evaluate bindings text = .ok c') :
    ∃ d, (c.withProducts true).evaluate bindings text = .ok d ∧ d.value? = c'.value? ∧
      d.tree? = c'.tree? := by
  obtain ⟨e, he, rfl⟩ := evaluate_eq_ok_iff.1 h
  obtain ⟨depth, f, z, hdepth, hderives, hz, rfl⟩ := Evaluation.of_eq_ok_iff.1 he
  change Derives (c.dialect.withProducts false) .sum depth f _ [] at hderives
  -- without implied products the normal form is the text without its blanks
  rw [normalChars_eq, withMarks_of_not_implied _ rfl] at hderives
  have hmarked := (hderives.withProducts true).marked .nil
  rw [withMarks_nil] at hmarked
  have hd : Evaluation.of (c.withProducts true).dialect bindings text = .ok _ :=
    Evaluation.of_eq_ok_iff.2 ⟨depth, f, z, hdepth, hmarked, hz, rfl⟩
  exact ⟨_, evaluate_eq_ok_iff.2 ⟨_, hd, rfl⟩, rfl, rfl⟩

/-- In two of the operands products are marked, and in both they are dropped again. -/
theorem evaluate_withProducts_literals :
    normalize (Dialect.withProducts {} true) "2*(3i)+(1e5)*x" =
        "2*(3\u2062i)+(1\u2062e\u20625)*x" ∧
      ∃ d, (withProducts {} true).evaluate (.ofList [("x", .unit)]) "2*(3i)+(1e5)*x" = .ok d ∧
        d.value? = some ⟨0, 100006⟩ ∧
        d.tree? = some (.binary .add (.binary .mul (.leaf "2") (.leaf "3i"))
          (.binary .mul (.leaf "1e5") (.leaf "x"))) := by
  obtain ⟨hmarks, hvalue⟩ :
      normalize (Dialect.withProducts {} true) "2*(3i)+(1e5)*x" =
          "2*(3\u2062i)+(1\u2062e\u20625)*x" ∧
        (withProducts {} false).evaluate (.ofList [("x", .unit)]) "2*(3i)+(1e5)*x" =
          .ok ⟨.withProducts {} false, some ⟨"2*(3i)+(1e5)*x", .ofList [("x", .unit)],
            .binary .add (.binary .mul (.leaf "2") (.leaf "3i"))
              (.binary .mul (.leaf "1e5") (.leaf "x")), ⟨0, 100006⟩⟩⟩ := by
    decide +kernel
  exact ⟨hmarks, evaluate_withProducts hvalue⟩

end Calculator

end ComplexFormula
