/-
# Calculators after any calls

A calculator is used by a series of calls. What every call preserves holds in all states
that a calculator can be in.

* `Calculator.run` : the state after some calls;
* `Calculator.plainLeaves_run` : the leaves of every tree that is held are plain;
* `Calculator.sameTree_iff_prefixText` : prefix notation tells trees apart.
-/
import ComplexFormula.Proofs.Evaluation
import ComplexFormula.Proofs.Normal
import ComplexFormula.Proofs.PrefixNotation

namespace ComplexFormula.Calculator

/-! ## Calls -/

/-- A call on a calculator. -/
inductive Call where
  | evaluate (bindings : Bindings) (text : String)
  | evaluateConjugate (bindings : Bindings) (text : String)
  deriving DecidableEq

/-- The calculator with the outcome of a call: a failure leaves it as it was. -/
def keep (c : Calculator) : Except FormulaError Calculator → Calculator
  | .ok c' => c'
  | .error _ => c

/-- The calculator after a call. -/
def after (c : Calculator) : Call → Calculator
  | .evaluate bindings text => c.keep (c.evaluate bindings text)
  | .evaluateConjugate bindings text => c.keep (c.evaluateConjugate bindings text)

/-- What a call comes to: the calculator after a success, or why there is none. -/
def attempt (c : Calculator) : Call → Except FormulaError Calculator
  | .evaluate bindings text => c.evaluate bindings text
  | .evaluateConjugate bindings text => c.evaluateConjugate bindings text

/-- A call leaves what it comes to, or all as it was. -/
theorem after_eq_keep (c : Calculator) (call : Call) : c.after call = c.keep (c.attempt call) := by
  cases call <;> rfl

/-- **Earlier calls do not matter to a call**: it comes to the same on any calculator of the
dialect. -/
theorem attempt_congr {c d : Calculator} (h : c.dialect = d.dialect) (call : Call) :
    c.attempt call = d.attempt call := by
  obtain ⟨dialect, last⟩ := c
  obtain ⟨dialect', last'⟩ := d
  obtain rfl : dialect = dialect' := h
  cases call with
  | evaluate bindings text => rw [attempt, attempt, evaluate_eq_map, evaluate_eq_map]
  | evaluateConjugate bindings text =>
    rw [attempt, attempt, evaluateConjugate_eq_map, evaluateConjugate_eq_map]

/-- A fresh calculator after some calls. -/
def run (dialect : Dialect) (calls : List Call) : Calculator := calls.foldl after { dialect }

/-- What a call preserves holds after any calls. -/
theorem run_induction {P : Calculator → Prop} {dialect : Dialect} (hfresh : P { dialect })
    (hafter : ∀ c call, P c → P (after c call)) (calls : List Call) : P (run dialect calls) := by
  rw [run]
  -- the induction is on the calls that are left, from any state with the property
  generalize ({ dialect } : Calculator) = c at hfresh
  induction calls generalizing c with
  | nil => exact hfresh
  | cons call calls ih => exact ih _ (hafter c call hfresh)

/-! ## Leaves -/

/-- The leaves of the tree that a calculator holds are plain. -/
def PlainLeaves (c : Calculator) : Prop := ∀ t, c.tree? = some t → t.AllLeaves Tree.IsPlain

/-- The texts of the leaves of an evaluation. -/
theorem isLeafText_of_evaluation {dialect : Dialect} {bindings : Bindings} {text : String}
    {e : Evaluation} (h : Evaluation.of dialect bindings text = .ok e) :
    e.tree.AllLeaves IsLeafText := by
  obtain ⟨depth, f, z, -, hderives, -, rfl⟩ := Evaluation.of_eq_ok_iff.1 h
  exact hderives.isLeafText_tree fun c hc => isBlank_of_mem_normalChars hc

/-- The leaves of an evaluation are plain. -/
theorem isPlain_of_evaluation {dialect : Dialect} {bindings : Bindings} {text : String}
    {e : Evaluation} (h : Evaluation.of dialect bindings text = .ok e) :
    e.tree.AllLeaves Tree.IsPlain :=
  (isLeafText_of_evaluation h).imp fun _ htext => htext.isPlain

/-- A call keeps the leaves plain. -/
theorem plainLeaves_after (c : Calculator) (call : Call) (h : c.PlainLeaves) :
    (after c call).PlainLeaves := by
  cases call with
  | evaluate bindings text =>
    rw [after]
    cases hc : c.evaluate bindings text with
    | error reason => exact h
    | ok c' =>
      obtain ⟨e, he, rfl⟩ := evaluate_eq_ok_iff.1 hc
      intro t ht
      obtain rfl := Option.some.inj ht
      exact isPlain_of_evaluation he
  | evaluateConjugate bindings text =>
    rw [after]
    cases hc : c.evaluateConjugate bindings text with
    | error reason => exact h
    | ok c' =>
      -- the node of the conjugate has no leaf of its own
      obtain ⟨e, he, rfl⟩ := evaluateConjugate_eq_ok_iff.1 hc
      intro t ht
      obtain rfl := Option.some.inj ht
      have hplain : e.tree.AllLeaves Tree.IsPlain := isPlain_of_evaluation he
      exact hplain

/-- **All leaves are plain**, after any calls. -/
theorem plainLeaves_run (dialect : Dialect) (calls : List Call) :
    (run dialect calls).PlainLeaves :=
  run_induction (fun _ ht => by simp [tree?] at ht) plainLeaves_after calls

/-! ## Comparing trees -/

/-- Calculators are compared by their trees. -/
theorem sameTree_iff {c d : Calculator} : c.sameTree d = true ↔ c.tree? = d.tree? := by
  unfold sameTree
  split
  · next hc hd => simp [hc, hd]
  · next s t hc hd => rw [Term.same_iff, hc, hd, Option.some.injEq]
  · next hnone hsome =>
    refine iff_of_false (by simp) fun heq => ?_
    cases hd : d.tree? with
    | none => exact hnone (heq.trans hd) hd
    | some t => exact hsome t t (heq.trans hd) hd

/-- The prefix notation of a calculator is that of its tree. -/
theorem prefixText?_eq (c : Calculator) : c.prefixText? = c.tree?.map Tree.prefixText := by
  rw [prefixText?, tree?, Option.map_map]
  rfl

/-- **Prefix notation is faithful.** Trees with plain leaves are told apart by it, the leaves
of all trees that a calculator can hold are plain, and so two calculators hold the same tree
if they show the same text. -/
theorem sameTree_iff_prefixText :
    (∀ s t : Tree, s.AllLeaves Tree.IsPlain → t.AllLeaves Tree.IsPlain →
      s.prefixText = t.prefixText → s = t) ∧
    (∀ dialect calls t, (run dialect calls).tree? = some t → t.AllLeaves Tree.IsPlain) ∧
    ∀ dialect dialect' calls calls',
      (run dialect calls).sameTree (run dialect' calls') = true ↔
        (run dialect calls).prefixText? = (run dialect' calls').prefixText? := by
  refine ⟨fun s t => Tree.eq_of_prefixText_eq, plainLeaves_run, ?_⟩
  intro dialect dialect' calls calls'
  rw [sameTree_iff, prefixText?_eq, prefixText?_eq]
  constructor
  · intro h
    rw [h]
  · intro h
    cases hs : (run dialect calls).tree? with
    | none =>
      rw [hs] at h
      exact (Option.map_eq_none_iff.1 h.symm).symm
    | some s =>
      rw [hs] at h
      obtain ⟨t, ht, heq⟩ := Option.map_eq_some_iff.1 h.symm
      rw [ht, Tree.eq_of_prefixText_eq (plainLeaves_run dialect' calls' t ht)
        (plainLeaves_run dialect calls s hs) heq]

/-- The tree after a success, a failure and a conjugate is read back from its text. -/
theorem sameTree_iff_prefixText_conjugate :
    (run {} [.evaluate .empty "2", .evaluate .empty "2+",
      .evaluateConjugate .empty "-(1+2i)"]).tree?
        = some (.unary .conjugate (Tree.negation (.leaf "1+2i"))) ∧
      ∀ t : Tree, t.AllLeaves Tree.IsPlain → t.prefixText = "(conjugado (- 0 1+2i))" →
        t = .unary .conjugate (Tree.negation (.leaf "1+2i")) := by
  obtain ⟨hinj, hplain, -⟩ := sameTree_iff_prefixText
  have htree : (run {} [.evaluate .empty "2", .evaluate .empty "2+",
      .evaluateConjugate .empty "-(1+2i)"]).tree?
        = some (.unary .conjugate (Tree.negation (.leaf "1+2i"))) := by
    decide +kernel
  refine ⟨htree, fun t ht htext => ?_⟩
  refine hinj t _ ht (hplain {} _ _ htree) (htext.trans ?_)
  decide +kernel

end ComplexFormula.Calculator
