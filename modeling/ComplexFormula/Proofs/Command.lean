/-
# Runs of the command

* `Command.records_collect` : what is asked for before a formula is evaluated;
* `Command.records_steps` : what a whole run asks for, and what it does not fail with;
* `unknownVariable_mem_variableNames` : a variable that the reader does not know is one that
  the scanner finds, so a completed table and the command know them all.
-/
import ComplexFormula.Command.Run
import ComplexFormula.Proofs.Dialogue
import ComplexFormula.Proofs.Evaluation
import ComplexFormula.Proofs.Unknown

namespace ComplexFormula

variable {σ : Type}

/-! ## Reading and asking -/

/-- Reading a line writes nothing down. -/
theorem Console.records_nextLine? (console : Console (StateM σ)) :
    Records console.recorded.nextLine? console.nextLine? fun _ texts => texts = [] := by
  refine (Records.recording [] console.readLine).bind ?_
  rintro line texts rfl
  exact Records.pure rfl

namespace Command

/-- The question for the value of a name. -/
def question (name : String) : String := name ++ " = "

/-- A prompt writes its question down. -/
theorem records_prompt (console : Console (StateM σ)) (name : String) :
    Records (prompt console.recorded name) (prompt console name)
      fun _ texts => texts = [question name] := by
  refine (Records.recording [question name] (console.complain (question name))).bind ?_
  rintro - texts rfl
  refine console.records_nextLine?.imp ?_
  rintro answer texts rfl
  rfl

/-- Reading the formula asks for nothing. -/
theorem records_readExpression (console : Console (StateM σ)) (a : Arguments) :
    Records (readExpression console.recorded a) (readExpression console a)
      fun outcome texts => texts = [] ∧
        ∀ text reason, outcome ≠ .error (.noValue text reason) := by
  unfold readExpression
  split
  · exact Records.pure ⟨rfl, by simp⟩
  · refine console.records_nextLine?.bind ?_
    rintro line texts rfl
    split
    · exact Records.pure ⟨rfl, by simp⟩
    · refine Records.pure ⟨rfl, ?_⟩
      intro text reason
      split <;> simp

/-- The variables of the formulas of a run. -/
def neededNames (a : Arguments) (expression : String) : List String :=
  variableNames a.dialect expression ++
    (a.compare.map (variableNames a.dialect)).getD []

/-- **Both formulas are asked about in one dialogue.** -/
theorem records_collect (console : Console (StateM σ)) (a : Arguments) (expression : String) :
    Records (collect console.recorded a expression) (collect console a expression)
      fun outcome texts => ∃ asked outcome', texts = asked.map question ∧
        outcome = outcome'.mapError .unbound ∧
        Answers (neededNames a expression) (.ofList a.bindings) asked outcome' := by
  unfold collect neededNames
  refine (records_askFor (records_prompt console) _ _).bind ?_
  rintro outcome texts ⟨asked, rfl, h⟩
  split
  · next reason => exact Records.pure ⟨asked, _, by simp, rfl, h.stopped _⟩
  · next bindings =>
    split
    · next hcompare =>
      refine Records.pure ⟨asked, .ok bindings, by simp, rfl, ?_⟩
      rw [hcompare, Option.map_none, Option.getD_none, List.append_nil]
      exact h
    · next other hcompare =>
      refine (records_askFor (records_prompt console) _ _).bind ?_
      rintro outcome' texts' ⟨asked', rfl, h'⟩
      refine Records.pure ⟨asked ++ asked', outcome', by simp, rfl, ?_⟩
      rw [hcompare, Option.map_some, Option.getD_some]
      exact h.append h'

/-! ## Evaluating -/

/-- Where its variables are bound, a formula holds no unknown variable. -/
theorem evaluate_ne_unknownVariable {a : Arguments} {bindings : Bindings} {text : String}
    (h : ∀ name ∈ variableNames a.dialect text, bindings.contains name = true)
    (conjugated : Bool) (text' name : String) :
    evaluate a bindings conjugated text ≠ .error (.noValue text' (.unknownVariable name)) := by
  rw [evaluate, ne_eq, mapError_eq_error_iff]
  rintro ⟨reason, hreason, heq⟩
  obtain ⟨rfl, rfl⟩ := Failure.noValue.inj heq
  have hof : Evaluation.of a.dialect bindings text = .error (.unknownVariable name) := by
    split at hreason
    · rwa [Calculator.evaluateConjugate_eq_error_iff] at hreason
    · rwa [Calculator.evaluate_eq_error_iff] at hreason
  obtain ⟨-, hget, hmem⟩ := Evaluation.of_eq_unknownVariable hof
  have hbound := h name hmem
  rw [Bindings.contains, hget] at hbound
  exact absurd hbound (by decide)

/-- Comparing asks for nothing. -/
theorem records_compareWith (console : Console (StateM σ)) {a : Arguments}
    {bindings : Bindings} {other : String}
    (h : ∀ name ∈ variableNames a.dialect other, bindings.contains name = true)
    (calculator : Calculator) :
    Records (compareWith console.recorded a bindings calculator other)
      (compareWith console a bindings calculator other)
      fun outcome texts => texts = [] ∧
        ∀ text name, outcome ≠ .error (.noValue text (.unknownVariable name)) := by
  unfold compareWith
  split
  · next failure hfailure =>
    refine Records.pure ⟨rfl, fun text name heq => ?_⟩
    rw [Except.error.inj heq] at hfailure
    exact evaluate_ne_unknownVariable h false text name hfailure
  · next second hsecond =>
    refine (Records.recording [] (console.print _)).bind ?_
    rintro - texts rfl
    exact Records.pure ⟨rfl, by simp⟩

/-- **A run asks for no name twice and meets no unknown variable.** -/
theorem records_steps (console : Console (StateM σ)) (a : Arguments) :
    Records (steps console.recorded a) (steps console a)
      fun outcome texts => (∃ asked : List String, asked.Nodup ∧ texts = asked.map question) ∧
        ∀ text name, outcome ≠ .error (.noValue text (.unknownVariable name)) := by
  unfold steps
  refine (records_readExpression console a).bind ?_
  rintro outcome texts ⟨rfl, hread⟩
  split
  · next failure =>
    refine Records.pure ⟨⟨[], List.nodup_nil, rfl⟩, fun text name => ?_⟩
    simpa using hread text (.unknownVariable name)
  · next expression =>
    refine (records_collect console a expression).bind ?_
    rintro outcome texts ⟨asked, outcome', rfl, rfl, h⟩
    have hasked : ∃ asked' : List String, asked'.Nodup ∧
        [] ++ (asked.map question ++ []) = asked'.map question :=
      ⟨asked, h.nodup, by simp⟩
    split
    · next failure hfailure =>
      refine Records.pure ⟨hasked, fun text name heq => ?_⟩
      obtain ⟨reason, -, hreason⟩ := mapError_eq_error_iff.1 hfailure
      rw [← hreason] at heq
      simp at heq
    · next bindings hbindings =>
      -- from here on the variables of both formulas are bound
      have hbound := h.covers bindings (mapError_eq_ok_iff.1 hbindings)
      split
      · next failure hfailure =>
        refine Records.pure ⟨hasked, fun text name heq => ?_⟩
        rw [Except.error.inj heq] at hfailure
        refine evaluate_ne_unknownVariable (fun name hname => ?_) _ text name hfailure
        exact hbound name (Or.inl (List.mem_append_left _ hname))
      · next calculator hcalculator =>
        refine (Records.recording [] (console.print _)).bind ?_
        rintro - texts rfl
        split
        · exact Records.pure ⟨⟨asked, h.nodup, by simp⟩, by simp⟩
        · next other hcompare =>
          refine (records_compareWith console (fun name hname => ?_) calculator).imp ?_
          · refine hbound name (Or.inl (List.mem_append_right _ ?_))
            rw [hcompare, Option.map_some, Option.getD_some]
            exact hname
          · rintro outcome texts ⟨rfl, hknown⟩
            exact ⟨⟨asked, h.nodup, by simp⟩, hknown⟩

end Command

/-! ## Unknown variables -/

/-- **The reader knows no variable that the scanner misses.** So no variable is unknown once
a dialogue has completed the table, and none is in a run of the command, which asks for no
name twice. -/
theorem unknownVariable_mem_variableNames :
    (∀ (c : Calculator) (bindings : Bindings) (text name : String),
      c.evaluate bindings text = .error (.unknownVariable name) →
        isReserved name = false ∧ bindings.get? name = none ∧
          name ∈ variableNames c.dialect text) ∧
    (∀ (σ : Type) (prompt : String → StateM σ (Option String)) (c : Calculator)
      (text : String) (known bindings : Bindings) (s : σ),
      ((Bindings.complete prompt c.dialect text known).run s).1 = .ok bindings →
        ∀ name, c.evaluate bindings text ≠ .error (.unknownVariable name)) ∧
    ∀ (σ : Type) (console : Console (StateM σ)) (a : Arguments) (s : σ),
      (∀ text name, ((Command.steps console a).run s).1
        ≠ .error (.noValue text (.unknownVariable name))) ∧
      ∃ asked : List String, asked.Nodup ∧
        (Command.steps console.recorded a).run ([], s)
          = (((Command.steps console a).run s).1,
              (asked.map Command.question, ((Command.steps console a).run s).2)) := by
  refine ⟨?_, ?_, ?_⟩
  · intro c bindings text name h
    exact Evaluation.of_eq_unknownVariable (Calculator.evaluate_eq_error_iff.1 h)
  · intro σ prompt c text known bindings s hcomplete name h
    obtain ⟨-, hget, hmem⟩ :=
      Evaluation.of_eq_unknownVariable (Calculator.evaluate_eq_error_iff.1 h)
    have hbound := Bindings.contains_of_complete hcomplete hmem
    rw [Bindings.contains, hget] at hbound
    exact absurd hbound (by decide)
  · intro σ console a s
    obtain ⟨texts, hrun, ⟨asked, hnodup, rfl⟩, hknown⟩ := Command.records_steps console a [] s
    exact ⟨hknown, asked, hnodup, hrun⟩

/-- The next one of some prepared answers. -/
def preparedAnswer (_ : String) : StateM (List String) (Option String) :=
  fun answers => (answers.head?, answers.tail)

/-- An unknown variable in the argument of a call, and the answers that make all known. -/
theorem unknownVariable_mem_variableNames_call :
    "ab" ∈ variableNames {} "sin(2ab)(1+2i)/asin(c)" ∧
      ∀ name, Calculator.evaluate {} (.ofList [("ab", .ofReal 1), ("asin", ⟨0, 2⟩),
        ("c", .ofReal 3)]) "sin(2ab)(1+2i)/asin(c)" ≠ .error (.unknownVariable name) := by
  obtain ⟨hmem, hknown, -⟩ := unknownVariable_mem_variableNames
  have hfirst : Calculator.evaluate {} .empty "sin(2ab)(1+2i)/asin(c)"
      = .error (.unknownVariable "ab") := by
    decide +kernel
  obtain ⟨-, -, hname⟩ := hmem {} .empty "sin(2ab)(1+2i)/asin(c)" "ab" hfirst
  refine ⟨hname, ?_⟩
  have hcomplete : ((Bindings.complete preparedAnswer {} "sin(2ab)(1+2i)/asin(c)" .empty).run
      ["1", "2i", "3"]).1
        = .ok (.ofList [("ab", .ofReal 1), ("asin", ⟨0, 2⟩), ("c", .ofReal 3)]) := by
    decide +kernel
  exact hknown _ preparedAnswer {} "sin(2ab)(1+2i)/asin(c)" .empty _ _ hcomplete

end ComplexFormula
