/-
# Which bindings matter

Evaluating a text looks up the names that the scanner finds in it, and no others, whether it
succeeds or fails. So bindings of other names, and of the reserved ones, never matter.

* `Formula.evaluate_congr` : a formula depends on the bindings of its names;
* `Formula.readAndEvaluate_congr` : a text depends on the bindings of the scanned names;
* `Calculator.outcome_congr` : evaluating depends on the bindings of the variables of the text.
-/
import ComplexFormula.Proofs.Evaluation
import ComplexFormula.Proofs.Respelling
import ComplexFormula.Proofs.Unknown

namespace ComplexFormula

/-! ## Formulas under two tables -/

section

variable {bindings bindings' : Bindings}

/-- If an operand is a name, two tables give it the same value. -/
def Operand.IsShared (bindings bindings' : Bindings) : Operand → Prop
  | constant _ _ => True
  | name text => bindings.resolve? text = bindings'.resolve? text

/-- An operand has the same value under both tables. -/
theorem Operand.evaluate_congr {operand : Operand} (h : operand.IsShared bindings bindings') :
    operand.evaluate bindings = operand.evaluate bindings' := by
  cases operand with
  | constant text value => rfl
  | name text =>
    have hresolve : bindings.resolve? text = bindings'.resolve? text := h
    rw [evaluate, evaluate, hresolve]

/-- **A formula depends on the bindings of its names.** -/
theorem Formula.evaluate_congr {f : Formula}
    (h : f.AllLeaves (Operand.IsShared bindings bindings')) :
    f.evaluate bindings = f.evaluate bindings' := by
  induction f with
  | leaf operand => rw [evaluate_leaf, evaluate_leaf, Operand.evaluate_congr h]
  | unary op f ih => rw [evaluate_unary, evaluate_unary, ih h]
  | binary op f g ihl ihr => rw [evaluate_binary, evaluate_binary, ihl h.1, ihr h.2]

/-- Formulas that are complete before a fault have the same fault first under both tables. -/
theorem Formula.check_congr {formulas : List Formula}
    (h : ∀ f ∈ formulas, f.AllLeaves (Operand.IsShared bindings bindings')) :
    check bindings formulas = check bindings' formulas := by
  induction formulas with
  | nil => rfl
  | cons f rest ih =>
    rw [check, check, evaluate_congr (h f List.mem_cons_self),
      ih fun g hg => h g (List.mem_cons_of_mem f hg)]

/-- **A text depends on the bindings of the names that are scanned in it**, on successful and
failing paths alike. -/
theorem Formula.readAndEvaluate_congr {dialect : Dialect} {s : List Char}
    (h : ∀ name ∈ scannedNames dialect s, bindings.resolve? name = bindings'.resolve? name) :
    readAndEvaluate dialect bindings s = readAndEvaluate dialect bindings' s := by
  have hshared : ∀ f : Formula, f.IsScanned dialect s →
      f.AllLeaves (Operand.IsShared bindings bindings') := by
    intro f hf
    refine Term.AllLeaves.imp (fun operand hoperand => ?_) hf
    cases operand with
    | constant text value => trivial
    | name text => exact h text hoperand
  unfold readAndEvaluate
  split
  · next fault hread =>
    rw [check_congr fun f hf => hshared f (isScanned_of_read_eq_error hread f hf)]
  · next f hread =>
    obtain ⟨depth, -, hderives⟩ := read_eq_ok_iff.1 hread
    rw [evaluate_congr (hshared f hderives.isScanned)]

/-- Where two tables agree on the variables of a text, they agree on all names in it. -/
theorem Bindings.resolve?_congr {dialect : Dialect} {text : String}
    (h : ∀ name ∈ variableNames dialect text, bindings.get? name = bindings'.get? name)
    {name : String} (hname : name ∈ scannedNames dialect (normalChars dialect text.toList)) :
    bindings.resolve? name = bindings'.resolve? name := by
  rw [resolve?, resolve?]
  cases hreserved : reserved? name with
  | some value => rfl
  | none =>
    refine h name (mem_variableNames_iff.2 ⟨hname, ?_⟩)
    rw [isReserved, hreserved]
    rfl

end

/-! ## Names in a text -/

/-- A lexeme stands in its text. -/
theorem chars_infix_of_mem_lexemes {dialect : Dialect} {s : List Char} {x : Lexeme}
    (h : x ∈ lexemes dialect s) : x.chars <:+: s := by
  obtain ⟨xs, ys, hlexemes⟩ := List.append_of_mem h
  refine ⟨xs.flatMap Lexeme.chars, ys.flatMap Lexeme.chars, ?_⟩
  rw [← flatMap_chars_lexemes dialect s, hlexemes]
  simp

/-- The names of a normal form are those of the text. -/
theorem scannedNames_normalChars (dialect : Dialect) (s : List Char) :
    scannedNames dialect (normalChars dialect s) = scannedNames dialect (withoutBlanks s) := by
  rw [normalChars_eq, scannedNames_eq, words_withMarks, ← scannedNames_eq]

/-- A scanned name is a lexeme of the text. -/
theorem mem_lexemes_of_mem_scannedNames {dialect : Dialect} {s : List Char} {name : String}
    (h : name ∈ scannedNames dialect s) : .name name.toList ∈ lexemes dialect s := by
  obtain ⟨x, hx, hname⟩ := List.mem_filterMap.1 h
  cases x with
  | call f => simp [Lexeme.named?] at hname
  | symbol c => simp [Lexeme.named?] at hname
  | name letters =>
    rw [← Option.some.inj hname, String.toList_ofList]
    exact hx

namespace Calculator

/-! ## Outcomes under two tables -/

/-- **Only the bindings of the variables of a text matter.** Two tables that agree on them have
the same outcome, be it a tree with its value or a reason why there is none. So it does not
matter how a name is bound that is reserved, that is nowhere a variable because it is only
called, or that does not stand in the text. -/
theorem outcome_congr (c : Calculator) (text : String) :
    (∀ bindings bindings' : Bindings,
      (∀ name ∈ variableNames c.dialect text, bindings.get? name = bindings'.get? name) →
      c.outcome bindings text = c.outcome bindings' text) ∧
    ∀ (bindings : Bindings) (name : String) (value : Complex),
      (name = "i" ∨ name = "I" ∨
        .name name.toList ∉ lexemes c.dialect (withoutBlanks text.toList) ∨
        ¬ name.toList <:+: withoutBlanks text.toList) →
      c.outcome (bindings.insert name value) text = c.outcome bindings text := by
  have hagree : ∀ bindings bindings' : Bindings,
      (∀ name ∈ variableNames c.dialect text, bindings.get? name = bindings'.get? name) →
      c.outcome bindings text = c.outcome bindings' text := by
    intro bindings bindings' h
    rw [outcome_eq, outcome_eq,
      Formula.readAndEvaluate_congr fun name hname => Bindings.resolve?_congr h hname]
  refine ⟨hagree, fun bindings name value hname => hagree _ _ fun word hword => ?_⟩
  obtain ⟨hscanned, hreserved⟩ := mem_variableNames_iff.1 hword
  rw [scannedNames_normalChars] at hscanned
  have hlexeme := mem_lexemes_of_mem_scannedNames hscanned
  -- the name that is bound is none of the variables
  have hne : word ≠ name := by
    rintro rfl
    rcases hname with rfl | rfl | habsent | habsent
    · exact absurd hreserved (by decide)
    · exact absurd hreserved (by decide)
    · exact habsent hlexeme
    · exact habsent (chars_infix_of_mem_lexemes hlexeme)
  rw [Bindings.get?_insert, if_neg hne]

/-- Neither the name of a function that is called nor the imaginary unit is looked up. -/
theorem outcome_congr_call :
    outcome {} (.ofList [("x", ⟨30, 0⟩), ("sin", ⟨7, 0⟩)]) "sin(x)+2i"
        = outcome {} (.ofList [("x", ⟨30, 0⟩)]) "sin(x)+2i" ∧
      ∀ value, outcome {} ((Bindings.ofList [("x", ⟨30, 0⟩)]).insert "i" value) "sin(x)+2i"
          = outcome {} (.ofList [("x", ⟨30, 0⟩)]) "sin(x)+2i" ∧
        outcome {} ((Bindings.ofList [("x", ⟨30, 0⟩)]).insert "sin" value) "sin(x)+2i"
          = outcome {} (.ofList [("x", ⟨30, 0⟩)]) "sin(x)+2i" ∧
        outcome {} ((Bindings.ofList [("x", ⟨30, 0⟩)]).insert "y" value) "sin(x)+2i"
          = outcome {} (.ofList [("x", ⟨30, 0⟩)]) "sin(x)+2i" := by
  obtain ⟨hagree, hinsert⟩ := outcome_congr {} "sin(x)+2i"
  obtain ⟨hnames, hcall, habsent⟩ : variableNames {} "sin(x)+2i" = ["x"] ∧
      .name "sin".toList ∉ lexemes {} (withoutBlanks "sin(x)+2i".toList) ∧
      ¬ "y".toList <:+: withoutBlanks "sin(x)+2i".toList := by
    decide +kernel
  refine ⟨hagree _ _ fun name hname => ?_, fun value => ⟨?_, ?_, ?_⟩⟩
  · rw [hnames, List.mem_singleton] at hname
    rw [hname]
    decide
  · exact hinsert _ "i" value (Or.inl rfl)
  · exact hinsert _ "sin" value (Or.inr (Or.inr (Or.inl hcall)))
  · exact hinsert _ "y" value (Or.inr (Or.inr (Or.inr habsent)))

end Calculator

end ComplexFormula
