/-
# Comparing two formulas on the command line

A run that compares two formulas evaluates both under the same bindings and prints whether
their trees are equal. Where the conjugate of the first formula is asked for, its tree has a
node that no tree of a formula has, so the answer does not depend on the formulas any more.

* `Derives.tree_ne_conjugate` : no formula has the tree of a conjugate;
* `Command.exists_of_steps_eq_ok` : what the steps of a run that compares print;
* `Command.compare_answer` : what is printed of the comparison.
-/
import ComplexFormula.Proofs.Calculator
import ComplexFormula.Proofs.Command

namespace ComplexFormula

variable {σ : Type}

/-! ## Trees of formulas and of conjugates -/

/-- **No formula has the tree of a conjugate.** -/
theorem Derives.tree_ne_conjugate {dialect : Dialect} {X : Precedence} {depth : Nat}
    {f : Formula} {s rest : List Char} (h : Derives dialect X depth f s rest) (t : Tree) :
    f.tree ≠ .unary .conjugate t := by
  induction h with
  | operand hX h ih => exact ih
  | chain => simp
  | negation h => simp
  | root h => simp
  | literal h => simp
  | group hliteral h ih => exact ih
  | call hc hread h => simp
  | name hc hread => simp
  | numeral hne hrun hmaximal hread => simp

/-- The tree of a conjugate is never that of a formula. -/
theorem Calculator.sameTree_conjugate {c d c' d' : Calculator} {bindings bindings' : Bindings}
    {text text' : String} (hc : c.evaluateConjugate bindings text = .ok c')
    (hd : d.evaluate bindings' text' = .ok d') : c'.sameTree d' = false := by
  obtain ⟨e, he, rfl⟩ := evaluateConjugate_eq_ok_iff.1 hc
  obtain ⟨e', he', rfl⟩ := evaluate_eq_ok_iff.1 hd
  obtain ⟨depth, f, z, -, hderives, -, rfl⟩ := Evaluation.of_eq_ok_iff.1 he'
  rw [← Bool.not_eq_true, sameTree_iff]
  intro htree
  exact hderives.tree_ne_conjugate e.tree (Option.some.inj htree).symm

/-! ## What is printed -/

/-- A console that writes down what it prints. -/
def Console.printed (console : Console (StateM σ)) : Console (StateM (List String × σ)) where
  print text := recording [text] (console.print text)
  complain text := recording [] (console.complain text)
  readLine := recording [] console.readLine

/-- A program that does what another one does and writes nothing down. -/
def Quiet {α : Type} (x : StateM (List String × σ) α) (y : StateM σ α) : Prop :=
  Records x y fun _ texts => texts = []

namespace Quiet

variable {α β : Type} {x : StateM (List String × σ) α} {y : StateM σ α}

/-- What is written down stays as it is. -/
theorem run_eq (h : Quiet x y) (log : List String) (s : σ) :
    x.run (log, s) = ((y.run s).1, (log, (y.run s).2)) := by
  obtain ⟨texts, hrun, rfl⟩ := h log s
  rw [hrun, List.append_nil]

/-- A value alone is quiet. -/
theorem pure (a : α) :
    Quiet (Pure.pure a : StateM (List String × σ) α) (Pure.pure a : StateM σ α) :=
  Records.pure rfl

/-- Two quiet steps are quiet. -/
theorem bind {f : α → StateM (List String × σ) β} {g : α → StateM σ β} (h : Quiet x y)
    (hf : ∀ a, Quiet (f a) (g a)) : Quiet (x >>= f) (y >>= g) := by
  refine Records.bind h ?_
  rintro a texts rfl
  exact hf a

end Quiet

/-- A dialogue is quiet if its prompts are. -/
theorem quiet_askFor {ask : String → StateM (List String × σ) (Option String)}
    {prompt : String → StateM σ (Option String)} (h : ∀ name, Quiet (ask name) (prompt name))
    (names : List String) (known : Bindings) :
    Quiet (Bindings.askFor ask names known) (Bindings.askFor prompt names known) := by
  induction names generalizing known with
  | nil => exact Quiet.pure _
  | cons name names ih =>
    rw [Bindings.askFor, Bindings.askFor]
    split
    · exact ih known
    · refine (h name).bind fun answer => ?_
      split
      · exact Quiet.pure _
      · exact ih _

namespace Command

variable (console : Console (StateM σ)) (a : Arguments)

/-- Reading a line prints nothing. -/
theorem quiet_nextLine? : Quiet console.printed.nextLine? console.nextLine? :=
  Quiet.bind (Records.recording [] console.readLine) fun _ => Quiet.pure _

/-- Reading the formula prints nothing. -/
theorem quiet_readExpression :
    Quiet (readExpression console.printed a) (readExpression console a) := by
  unfold readExpression
  split
  · exact Quiet.pure _
  · refine (quiet_nextLine? console).bind fun line => ?_
    split
    · exact Quiet.pure _
    · exact Quiet.pure _

/-- A prompt prints nothing to the output. -/
theorem quiet_prompt (name : String) :
    Quiet (prompt console.printed name) (prompt console name) :=
  Quiet.bind (Records.recording [] (console.complain _)) fun _ => quiet_nextLine? console

/-- Asking for the bindings prints nothing to the output. -/
theorem quiet_collect (expression : String) :
    Quiet (collect console.printed a expression) (collect console a expression) := by
  unfold collect
  refine (quiet_askFor (quiet_prompt console) _ _).bind fun outcome => ?_
  split
  · exact Quiet.pure _
  · split
    · exact Quiet.pure _
    · exact (quiet_askFor (quiet_prompt console) _ _).bind fun _ => Quiet.pure _

/-! ## Runs that compare -/

variable {console a} {s : σ} {other : String}

/-- A program goes on where its first step has come to. -/
theorem run_bind_eq {α β : Type} (x : StateM σ α) (f : α → StateM σ β) (s : σ) :
    (x >>= f).run s = (f (x.run s).1).run (x.run s).2 := rfl

/-- What a run that compares prints, from its steps. -/
theorem exists_of_steps_eq_ok (h : ((steps console a).run s).1 = .ok ())
    (hcompare : a.compare = some other) :
    ∃ expression bindings calculator second,
      ((readExpression console a).run s).1 = .ok expression ∧
      ((collect console a expression).run ((readExpression console a).run s).2).1
        = .ok bindings ∧
      evaluate a bindings (a.has .conjugate) expression = .ok calculator ∧
      evaluate a bindings false other = .ok second ∧
      (steps console.printed a).run ([], s) = (.ok (), ([results a calculator,
        "structurally equal: " ++ toString (calculator.sameTree second) ++ "\n"],
        ((steps console a).run s).2)) := by
  unfold steps at h ⊢
  rw [run_bind_eq] at h
  rw [run_bind_eq, run_bind_eq, (quiet_readExpression console a).run_eq]
  cases hread : ((readExpression console a).run s).1 with
  | error failure =>
    rw [hread] at h
    simp at h
  | ok expression =>
    rw [hread] at h
    simp only at h ⊢
    rw [run_bind_eq] at h
    rw [run_bind_eq, run_bind_eq, (quiet_collect console a expression).run_eq]
    cases hcollect :
        ((collect console a expression).run ((readExpression console a).run s).2).1 with
    | error failure =>
      rw [hcollect] at h
      simp at h
    | ok bindings =>
      rw [hcollect] at h
      simp only at h ⊢
      cases hfirst : evaluate a bindings (a.has .conjugate) expression with
      | error failure =>
        rw [hfirst] at h
        simp at h
      | ok calculator =>
        rw [hfirst] at h
        simp only [hcompare] at h ⊢
        unfold compareWith at h ⊢
        cases hsecond : evaluate a bindings false other with
        | error failure =>
          rw [hsecond, run_bind_eq] at h
          simp at h
        | ok second =>
          exact ⟨expression, bindings, calculator, second, rfl, hcollect, hfirst, hsecond, rfl⟩

/-- A run without a failure has gone through all its steps. -/
theorem steps_eq_ok_of_run (h : ((run console (.evaluate a)).run s).1 = 0) :
    ((steps console a).run s).1 = .ok () := by
  unfold run at h
  rw [run_bind_eq] at h
  cases hsteps : ((steps console a).run s).1 with
  | ok => rfl
  | error failure =>
    rw [hsteps, run_bind_eq] at h
    exact absurd h Nat.one_ne_zero

/-- Without the conjugate a formula is evaluated as it is. -/
theorem evaluate_plain_eq_ok_iff {bindings : Bindings} {text : String} {c : Calculator} :
    evaluate a bindings false text = .ok c ↔
      ({ dialect := a.dialect } : Calculator).evaluate bindings text = .ok c := by
  rw [evaluate]
  exact mapError_eq_ok_iff

/-- The conjugate of a formula is evaluated where the formula is. -/
theorem exists_of_evaluate_conjugate {bindings : Bindings} {text : String} {c : Calculator}
    (h : evaluate a bindings true text = .ok c) :
    ({ dialect := a.dialect } : Calculator).evaluateConjugate bindings text = .ok c ∧
      ∃ first, ({ dialect := a.dialect } : Calculator).evaluate bindings text = .ok first := by
  rw [evaluate] at h
  have hconjugate := mapError_eq_ok_iff.1 h
  obtain ⟨e, he, -⟩ := Calculator.evaluateConjugate_eq_ok_iff.1 hconjugate
  exact ⟨hconjugate, _, Calculator.evaluate_eq_ok_iff.2 ⟨e, he, rfl⟩⟩

/-- **The answer of a comparison.** A run that compares, with exit code zero, prints what was
asked for of the first formula and then one answer. It says that the trees are equal exactly
if they are, and the conjugate was not asked for: with that, even a formula compared with itself
is said to be another one. -/
theorem compare_answer (hcompare : a.compare = some other)
    (hexit : ((run console (.evaluate a)).run s).1 = 0) :
    ∃ expression bindings calculator first second, ∃ answer : Bool,
      ((readExpression console a).run s).1 = .ok expression ∧
      ((collect console a expression).run ((readExpression console a).run s).2).1
        = .ok bindings ∧
      evaluate a bindings (a.has .conjugate) expression = .ok calculator ∧
      ({ dialect := a.dialect } : Calculator).evaluate bindings expression = .ok first ∧
      ({ dialect := a.dialect } : Calculator).evaluate bindings other = .ok second ∧
      (run console.printed (.evaluate a)).run ([], s) = (0, ([results a calculator,
        "structurally equal: " ++ toString answer ++ "\n"],
        ((run console (.evaluate a)).run s).2)) ∧
      (answer = true ↔ a.has .conjugate = false ∧ first.tree? = second.tree?) ∧
      (other = expression → answer = !a.has .conjugate) := by
  have hsteps := steps_eq_ok_of_run hexit
  obtain ⟨expression, bindings, calculator, second, hread, hcollect, hcalculator, hsecond, hrun⟩ :=
    exists_of_steps_eq_ok hsteps hcompare
  have hprinted : (run console.printed (.evaluate a)).run ([], s) = (0, ([results a calculator,
      "structurally equal: " ++ toString (calculator.sameTree second) ++ "\n"],
      ((run console (.evaluate a)).run s).2)) := by
    unfold run
    rw [run_bind_eq, run_bind_eq, hrun, hsteps]
    rfl
  rw [evaluate_plain_eq_ok_iff] at hsecond
  cases hconjugate : a.has .conjugate with
  | false =>
    have hfirst := hcalculator
    rw [hconjugate, evaluate_plain_eq_ok_iff] at hfirst
    rw [hconjugate] at hcalculator
    refine ⟨expression, bindings, calculator, calculator, second, _, hread, hcollect,
      hcalculator, hfirst, hsecond, hprinted, ?_, ?_⟩
    · rw [Calculator.sameTree_iff]
      simp
    · rintro rfl
      rw [hfirst] at hsecond
      rw [Except.ok.inj hsecond, Bool.not_false, Calculator.sameTree_iff]
  | true =>
    rw [hconjugate] at hcalculator
    obtain ⟨hwrapped, first, hfirst⟩ := exists_of_evaluate_conjugate hcalculator
    refine ⟨expression, bindings, calculator, first, second, _, hread, hcollect,
      hcalculator, hfirst, hsecond, hprinted, ?_, ?_⟩
    · rw [Calculator.sameTree_conjugate hwrapped hsecond]
      simp
    · rintro -
      exact Calculator.sameTree_conjugate hwrapped hsecond

/-- A product that is compared with itself, once its variable has been asked for. -/
theorem compare_answer_self :
    ((run Transcript.console.printed
      (.evaluate { expression := some "2x", compare := some "2x" })).run
        ([], { input := "3-2i\n".toList })).2.1.getLast? = some "structurally equal: true\n" := by
  obtain ⟨expression, bindings, calculator, first, second, answer, hread, -, -, -, -, hrun, -,
    hself⟩ := @compare_answer _ Transcript.console
      { expression := some "2x", compare := some "2x" } { input := "3-2i\n".toList } "2x" rfl
      (by decide +kernel)
  obtain rfl : "2x" = expression := Except.ok.inj hread
  rw [hrun, hself rfl]
  rfl

/-- A numeral whose conjugate is compared with itself is said to be another formula. -/
theorem compare_conjugate_self :
    (Invocation.ofArguments ["1", "--conjugate", "--compare", "1"]).toOption.map
        (fun invocation => ((run Transcript.console invocation).run { input := [] }).2.output)
      = some "1.0000\nstructurally equal: false\n" := by
  decide +kernel

end Command

end ComplexFormula
