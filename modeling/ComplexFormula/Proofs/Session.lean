/-
# Sessions

Several calculators are used side by side, with tables of values that change between the calls,
and a calculator may become a copy of another one. Whatever happens in a session, a calculator
shows what its last successful call alone would have left in a fresh one, under the values of
that moment.

* `Session.run` : a session after some steps;
* `Session.lastSuccess` : the last successful call of a calculator, by the steps alone;
* `Session.isLeftBy_run` : every calculator is as that call alone leaves it;
* `Session.run_lastSuccess` : what follows for all that a calculator shows, and for its fields.
-/
import Mathlib.Logic.Function.Basic
import ComplexFormula.Proofs.Fields

namespace ComplexFormula

namespace Calculator

/-! ## Successes -/

/-- A text that is evaluated has a normal form that is not empty. -/
theorem normalized_ne_of_evaluation {dialect : Dialect} {bindings : Bindings} {text : String}
    {e : Evaluation} (h : Evaluation.of dialect bindings text = .ok e) : e.normalized ≠ "" := by
  obtain ⟨depth, f, z, -, hderives, -, rfl⟩ := Evaluation.of_eq_ok_iff.1 h
  -- nothing is derived from the empty text
  obtain ⟨p, hp, hne, -⟩ := hderives.exists_balanced
  rw [List.append_nil] at hp
  intro hempty
  have hchars := congrArg String.toList hempty
  rw [normalize, String.toList_ofList, hp] at hchars
  exact hne hchars

/-- A success keeps the dialect and holds an evaluation whose normal form is not empty. -/
theorem exists_last_of_attempt {c d : Calculator} {call : Call} (h : c.attempt call = .ok d) :
    d.dialect = c.dialect ∧ ∃ e, d.last = some e ∧ e.normalized ≠ "" := by
  cases call with
  | evaluate bindings text =>
    obtain ⟨e, he, rfl⟩ := evaluate_eq_ok_iff.1 h
    exact ⟨rfl, e, rfl, normalized_ne_of_evaluation he⟩
  | evaluateConjugate bindings text =>
    obtain ⟨e, he, rfl⟩ := evaluateConjugate_eq_ok_iff.1 h
    -- the conjugate has the normal form of the text
    have hne := normalized_ne_of_evaluation he
    exact ⟨rfl, e.conjugate, rfl, hne⟩

/-! ## What a call leaves -/

/-- A calculator is as one successful call leaves a fresh one of its dialect, or it is fresh. -/
def IsLeftBy (c : Calculator) : Option Call → Prop
  | none => c = { dialect := c.dialect }
  | some call => attempt { dialect := c.dialect } call = .ok c

/-- A successful call leaves the calculator as it leaves a fresh one. -/
theorem isLeftBy_of_attempt {c d : Calculator} {call : Call} (h : c.attempt call = .ok d) :
    d.IsLeftBy (some call) := by
  have hdialect := (exists_last_of_attempt h).1
  rw [IsLeftBy, ← h]
  exact attempt_congr hdialect call

/-- A fresh calculator on which the call is made is in the same state. -/
theorem IsLeftBy.eq_run {c : Calculator} {call? : Option Call} (h : c.IsLeftBy call?) :
    c = run c.dialect call?.toList := by
  cases call? with
  | none => exact h
  | some call =>
    have hcall : attempt { dialect := c.dialect } call = .ok c := h
    rw [Option.toList_some, run, List.foldl_cons, List.foldl_nil, after_eq_keep, hcall, keep]

/-- A calculator holds a value, a tree and a normal form that is not empty, or none of them. -/
def IsWhole (c : Calculator) : Prop :=
  (c.value? = none ∧ c.tree? = none ∧ c.normalized = "") ∨
    ∃ z t, c.value? = some z ∧ c.tree? = some t ∧ c.normalized ≠ ""

/-- What one successful call leaves is whole. -/
theorem IsLeftBy.isWhole {c : Calculator} {call? : Option Call} (h : c.IsLeftBy call?) :
    c.IsWhole := by
  cases call? with
  | none =>
    have hfresh : c = { dialect := c.dialect } := h
    rw [hfresh]
    exact Or.inl ⟨rfl, rfl, rfl⟩
  | some call =>
    obtain ⟨-, e, he, hne⟩ := exists_last_of_attempt h
    refine Or.inr ⟨e.value, e.tree, ?_, ?_, ?_⟩
    · rw [value?, he, Option.map_some]
    · rw [tree?, he, Option.map_some]
    · rw [normalized, he, Option.map_some, Option.getD_some]
      exact hne

end Calculator

/-! ## Sessions -/

/-- Calculators and tables of values, each with a number. -/
structure Session where
  calculators : Nat → Calculator
  tables : Nat → Bindings

namespace Session

/-- What can happen in a session. -/
inductive Step where
  /-- A name is bound in a table, in place of the value that it had. -/
  | bind (table : Nat) (name : String) (value : Complex)
  /-- A table is emptied. -/
  | clear (table : Nat)
  /-- A calculator evaluates a text under the values of a table. -/
  | evaluate (calculator table : Nat) (text : String)
  /-- A calculator evaluates the conjugate of a text. -/
  | evaluateConjugate (calculator table : Nat) (text : String)
  /-- A calculator becomes a copy of another one. -/
  | clone (source target : Nat)

/-- A session in which nothing has been evaluated yet. -/
def fresh (dialects : Nat → Dialect) (tables : Nat → Bindings) : Session :=
  ⟨fun i => { dialect := dialects i }, tables⟩

/-- A session after a call on one of its calculators. -/
def call (s : Session) (i : Nat) (call : Calculator.Call) : Session :=
  { s with calculators := Function.update s.calculators i ((s.calculators i).after call) }

/-- A session after a step. -/
def step (s : Session) : Step → Session
  | .bind t name value =>
    { s with tables := Function.update s.tables t ((s.tables t).insert name value) }
  | .clear t => { s with tables := Function.update s.tables t .empty }
  | .evaluate i t text => s.call i (.evaluate (s.tables t) text)
  | .evaluateConjugate i t text => s.call i (.evaluateConjugate (s.tables t) text)
  | .clone source target =>
    { s with calculators := Function.update s.calculators target (s.calculators source) }

/-- A session after some steps. -/
def run (s : Session) (steps : List Step) : Session := steps.foldl step s

/-- After a call on a calculator it is in the state that the call leaves. -/
theorem calculators_call_self (s : Session) (i : Nat) (call : Calculator.Call) :
    (s.call i call).calculators i = (s.calculators i).after call :=
  Function.update_self ..

/-- A call that fails leaves the session as it was. -/
theorem call_of_error {s : Session} {i : Nat} {call : Calculator.Call} {reason : FormulaError}
    (h : (s.calculators i).attempt call = .error reason) : s.call i call = s := by
  rw [Session.call, Calculator.after_eq_keep, h, Calculator.keep, Function.update_eq_self]

/-! ## The last success of each calculator -/

/-- The last successful calls after one more call. -/
def noteCall (s : Session) (known : Nat → Option Calculator.Call) (i : Nat)
    (call : Calculator.Call) : Nat → Option Calculator.Call :=
  match (s.calculators i).attempt call with
  | .ok _ => Function.update known i (some call)
  | .error _ => known

/-- The last successful calls after one more step. A copy takes over the one of its source. -/
def note (s : Session) (known : Nat → Option Calculator.Call) :
    Step → Nat → Option Calculator.Call
  | .bind _ _ _ => known
  | .clear _ => known
  | .evaluate i t text => s.noteCall known i (.evaluate (s.tables t) text)
  | .evaluateConjugate i t text => s.noteCall known i (.evaluateConjugate (s.tables t) text)
  | .clone source target => Function.update known target (known source)

/-- The last successful calls after some steps, when those before are known. -/
def lastSuccessFrom (s : Session) (known : Nat → Option Calculator.Call) :
    List Step → Nat → Option Calculator.Call
  | [] => known
  | step :: rest => lastSuccessFrom (s.step step) (s.note known step) rest

/-- The last successful call of each calculator in some steps, with the values of its moment. -/
def lastSuccess (s : Session) (steps : List Step) : Nat → Option Calculator.Call :=
  s.lastSuccessFrom (fun _ => none) steps

/-- Every calculator is as the call that is known of it leaves it. -/
def IsLeftBy (s : Session) (known : Nat → Option Calculator.Call) : Prop :=
  ∀ i, (s.calculators i).IsLeftBy (known i)

/-- Where a calculator and its record are replaced together, the record is kept. -/
theorem IsLeftBy.update {s : Session} {known : Nat → Option Calculator.Call} (h : s.IsLeftBy known)
    (i : Nat) {c : Calculator} {call? : Option Calculator.Call} (hc : c.IsLeftBy call?) :
    { s with calculators := Function.update s.calculators i c }.IsLeftBy
      (Function.update known i call?) := by
  intro j
  rcases eq_or_ne j i with rfl | hj
  · simp only [Function.update_self]
    exact hc
  · simp only [Function.update_of_ne hj]
    exact h j

/-- A call keeps the record. -/
theorem isLeftBy_call {s : Session} {known : Nat → Option Calculator.Call} (h : s.IsLeftBy known)
    (i : Nat) (call : Calculator.Call) : (s.call i call).IsLeftBy (s.noteCall known i call) := by
  cases hcall : (s.calculators i).attempt call with
  | error reason => rwa [call_of_error hcall, noteCall, hcall]
  | ok d =>
    rw [noteCall, hcall, Session.call, Calculator.after_eq_keep, hcall]
    exact h.update i (Calculator.isLeftBy_of_attempt hcall)

/-- A step keeps the record. -/
theorem isLeftBy_step {s : Session} {known : Nat → Option Calculator.Call} (h : s.IsLeftBy known)
    (step : Step) : (s.step step).IsLeftBy (s.note known step) := by
  cases step with
  | bind t name value => exact h
  | clear t => exact h
  | evaluate i t text => exact isLeftBy_call h i _
  | evaluateConjugate i t text => exact isLeftBy_call h i _
  | clone source target => exact h.update target (h source)

/-- **Every calculator is as its last successful call alone leaves it**, after any steps. -/
theorem isLeftBy_run (dialects : Nat → Dialect) (tables : Nat → Bindings) (steps : List Step) :
    ((fresh dialects tables).run steps).IsLeftBy ((fresh dialects tables).lastSuccess steps) := by
  have hfresh : (fresh dialects tables).IsLeftBy fun _ => none := fun _ => rfl
  rw [run, lastSuccess]
  -- the induction is on the steps that are left, from any session with its record
  generalize fresh dialects tables = s, (fun _ => none : Nat → Option Calculator.Call) = known
    at hfresh
  induction steps generalizing s known with
  | nil => exact hfresh
  | cons step steps ih => exact ih _ _ (isLeftBy_step hfresh step)

/-- **A calculator shows its last success.** After any steps a calculator is as its last
successful call leaves a fresh one of its dialect, under the values of that moment, and that call
does succeed there; so its normal form, its value, its tree and its drawing are those. The value
and the tree are there together, or not yet, which is where the normal form is empty. A call that
fails leaves a session as it was. All of this holds of the fields in which the calculator is kept,
which every call assigns one after another. -/
theorem run_lastSuccess (dialects : Nat → Dialect) (tables : Nat → Bindings) (steps : List Step)
    (i : Nat) :
    ((fresh dialects tables).run steps).calculators i
        = Calculator.run (((fresh dialects tables).run steps).calculators i).dialect
            ((fresh dialects tables).lastSuccess steps i).toList ∧
      (∀ call, (fresh dialects tables).lastSuccess steps i = some call →
        Calculator.attempt { dialect := (((fresh dialects tables).run steps).calculators i).dialect }
          call = .ok (((fresh dialects tables).run steps).calculators i)) ∧
      (((fresh dialects tables).run steps).calculators i).IsWhole ∧
      (∀ (s : Session) (t : Nat) (text : String) (reason : FormulaError),
        ((s.calculators i).evaluate (s.tables t) text = .error reason →
          s.step (.evaluate i t text) = s) ∧
        ((s.calculators i).evaluateConjugate (s.tables t) text = .error reason →
          s.step (.evaluateConjugate i t text) = s)) ∧
      (((fresh dialects tables).run steps).calculators i).fields
        = Calculator.Fields.run (((fresh dialects tables).run steps).calculators i).dialect
            ((fresh dialects tables).lastSuccess steps i).toList ∧
      ∀ (s : Session) (call : Calculator.Call),
        ((s.call i call).calculators i).fields = (s.calculators i).fields.after call := by
  have hleft := isLeftBy_run dialects tables steps i
  refine ⟨hleft.eq_run, fun call hcall => ?_, hleft.isWhole,
    fun s t text reason => ⟨fun h => ?_, fun h => ?_⟩, ?_, fun s call => ?_⟩
  · rwa [hcall] at hleft
  · exact call_of_error h
  · exact call_of_error h
  · rw [← Calculator.fields_run, ← hleft.eq_run]
  · rw [calculators_call_self, Calculator.fields_after]

/-- A variable is bound anew after the first success, and a failure and a copy follow. -/
def rebinding : List Step :=
  [.bind 0 "x" ⟨2, 0⟩, .evaluate 0 0 "x+1", .bind 0 "x" ⟨5, 0⟩, .evaluate 0 0 "x/0", .clone 0 1,
    .evaluateConjugate 0 0 "x", .clear 0]

/-- The copy still shows the first value of the variable, which a call on a fresh calculator gives,
and a failure of its own changes nothing. -/
theorem run_lastSuccess_rebinding :
    ((fresh (fun _ => {}) fun _ => .empty).run rebinding).calculators 1
        = Calculator.run {} [.evaluate (.ofList [("x", ⟨2, 0⟩)]) "x+1"] ∧
      Calculator.attempt {} (.evaluate (.ofList [("x", ⟨2, 0⟩)]) "x+1")
        = .ok (((fresh (fun _ => {}) fun _ => .empty).run rebinding).calculators 1) ∧
      ((fresh (fun _ => {}) fun _ => .empty).run rebinding).step (.evaluate 1 0 "x")
        = (fresh (fun _ => {}) fun _ => .empty).run rebinding := by
  obtain ⟨hstate, hsuccess, -, hfailure, -⟩ :=
    run_lastSuccess (fun _ => {}) (fun _ => .empty) rebinding 1
  obtain ⟨hdialect, hcall, herror⟩ :
      (((fresh (fun _ => {}) fun _ => .empty).run rebinding).calculators 1).dialect = {} ∧
        (fresh (fun _ => {}) fun _ => .empty).lastSuccess rebinding 1
          = some (.evaluate (.ofList [("x", ⟨2, 0⟩)]) "x+1") ∧
        (((fresh (fun _ => {}) fun _ => .empty).run rebinding).calculators 1).evaluate
            (((fresh (fun _ => {}) fun _ => .empty).run rebinding).tables 0) "x"
          = .error (.unknownVariable "x") := by
    decide +kernel
  have hvalue := hsuccess _ hcall
  rw [hdialect] at hvalue
  rw [hdialect, hcall] at hstate
  exact ⟨hstate, hvalue, (hfailure _ 0 "x" _).1 herror⟩

end Session

end ComplexFormula
