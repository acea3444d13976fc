/-
# Evaluation under two limits

Two runs of the evaluator on one text, under a lower and a higher limit of nesting, go through
the same steps until the lower limit stops the first one.

* `Cuts` : a program stops at a limit or does what another program does;
* `cuts_symbol` : so does the evaluator under a lower limit, at each symbol;
* `of_withLimit` : so does the evaluation of a text.
-/
import ComplexFormula.Proofs.Grammar.Limit
import ComplexFormula.Proofs.Positional.Agreement

namespace ComplexFormula.Positional

/-! ## Programs that are cut off -/

/-- The program `x` stops at the limit, or does what `y` does from where the cursor stands. -/
def Cuts {α : Type} (limit : Nat) (x y : Run α) : Prop :=
  ∀ cursor, outcome x cursor = some (.error (.malformed (.nestedTooDeep limit))) ∨
    outcome x cursor = outcome y cursor

section

variable {α β : Type} {limit : Nat}

/-- A program does what it does. -/
theorem Cuts.refl (x : Run α) : Cuts limit x x := fun _ => Or.inr rfl

/-- A program has no outcome where its first step has none. -/
theorem outcome_bind_of_none {x : Run α} {f : α → Run β} {cursor : Cursor}
    (h : outcome x cursor = none) : outcome (x >>= f) cursor = none := by
  unfold outcome at h ⊢
  show (Option.bind (x cursor) _ : Option (Except FormulaError (β × Cursor))) = _
  rw [show x cursor = none from h]
  rfl

/-- Two steps after one another are cut off where one of them is. -/
theorem Cuts.bind {x y : Run α} {f g : α → Run β} (hx : Cuts limit x y)
    (hf : ∀ a, Cuts limit (f a) (g a)) : Cuts limit (x >>= f) (y >>= g) := by
  intro cursor
  rcases hx cursor with hstop | hsame
  · exact Or.inl (outcome_bind_of_error hstop)
  · cases hy : outcome y cursor with
    | none =>
      rw [hy] at hsame
      rw [outcome_bind_of_none hsame, outcome_bind_of_none hy]
      exact Or.inr rfl
    | some result =>
      rw [hy] at hsame
      cases result with
      | error reason =>
        rw [outcome_bind_of_error hsame, outcome_bind_of_error hy]
        exact Or.inr rfl
      | ok result =>
        obtain ⟨a, cursor'⟩ := result
        rw [outcome_bind_of_ok hsame, outcome_bind_of_ok hy]
        exact hf a cursor'

/-- What follows one step is cut off where it is. -/
theorem Cuts.after (x : Run α) {f g : α → Run β} (hf : ∀ a, Cuts limit (f a) (g a)) :
    Cuts limit (x >>= f) (x >>= g) :=
  (Cuts.refl x).bind hf

end

/-! ## The evaluator under a lower limit -/

/-- The task in the dialect with another limit. -/
def Task.withLimit (task : Task) (limit : Nat) : Task :=
  { task with dialect := task.dialect.withLimit limit }

section

variable (task : Task) {m n : Nat}

/-- **A level that is opened under the lower limit is opened under the higher one.** -/
theorem cuts_enter (hmn : m ≤ n) :
    Cuts m (enter (task.withLimit m)) (enter (task.withLimit n)) := by
  rintro ⟨position, depth⟩
  rw [outcome_enter, outcome_enter]
  by_cases hm : depth + 1 > m
  · exact Or.inl (if_pos hm)
  · have hn : ¬ depth + 1 > n := by omega
    exact Or.inr ((if_neg hm).trans (if_neg hn).symm)

/-- A chain after its left part. -/
theorem cuts_chain {x y : Run Evaluated} (X : Precedence) (h : Cuts m x y) (steps : Nat)
    (left : Evaluated) :
    Cuts m (chain (task.withLimit m) X x steps left) (chain (task.withLimit n) X y steps left) := by
  induction steps generalizing left with
  | zero => exact .refl _
  | succ steps ih =>
    refine .after (peek task) fun c => ?_
    cases c.bind X.operator? with
    | none => exact .refl _
    | some op =>
      exact .after advance fun _ => h.bind fun right => .after _ fun e => ih e

variable {inner inner' : Precedence → Run Evaluated}

/-- What stands in parentheses. -/
theorem cuts_enclosed (hinner : ∀ X, Cuts m (inner X) (inner' X)) (opening : Nat) :
    Cuts m (enclosed (task.withLimit m) inner opening)
      (enclosed (task.withLimit n) inner' opening) :=
  (hinner .sum).bind fun _ => .refl _

/-- A root. -/
theorem cuts_root (hmn : m ≤ n) (hinner : ∀ X, Cuts m (inner X) (inner' X)) :
    Cuts m (root (task.withLimit m) inner) (root (task.withLimit n) inner') :=
  .after advance fun _ => (cuts_enter task hmn).bind fun _ =>
    (hinner .signed).bind fun _ => .refl _

/-- A group. -/
theorem cuts_group (hmn : m ≤ n) (hinner : ∀ X, Cuts m (inner X) (inner' X)) :
    Cuts m (group (task.withLimit m) inner) (group (task.withLimit n) inner') := by
  refine .after here fun opening => .after (defined (matchingClose task.text opening)) ?_
  intro close
  cases close with
  | none => exact .refl _
  | some close =>
    refine (cuts_enter task hmn).bind fun _ => .after _ fun content =>
      .after (defined (ofLiteral (literalText content))) fun literal => ?_
    cases literal with
    | ok value => exact .refl _
    | error reason => exact .after _ fun _ => cuts_enclosed task hinner opening

/-- A call or a name. -/
theorem cuts_identifier (hmn : m ≤ n) (hinner : ∀ X, Cuts m (inner X) (inner' X)) :
    Cuts m (identifier (task.withLimit m) inner) (identifier (task.withLimit n) inner') := by
  refine .after here fun start =>
    .after (defined (readIdentifier task.dialect task.text start)) fun result => ?_
  obtain ⟨word, stop⟩ := result
  cases word with
  | name letters => exact .refl _
  | call f =>
    exact .after _ fun _ => (cuts_enter task hmn).bind fun _ =>
      (cuts_enclosed task hinner stop).bind fun _ => .refl _

/-- A symbol, given the symbols in it. -/
theorem cuts_layer (hmn : m ≤ n) (hinner : ∀ X, Cuts m (inner X) (inner' X)) (X : Precedence) :
    Cuts m (layer (task.withLimit m) inner X) (layer (task.withLimit n) inner' X) := by
  have hchain : ∀ Y : Precedence,
      Cuts m (inner Y.tighter >>= chain (task.withLimit m) Y (inner Y.tighter)
          (task.text.length + 1))
        (inner' Y.tighter >>= chain (task.withLimit n) Y (inner' Y.tighter)
          (task.text.length + 1)) :=
    fun Y => (hinner Y.tighter).bind fun left => cuts_chain task Y (hinner Y.tighter) _ left
  cases X with
  | sum => exact hchain .sum
  | product => exact hchain .product
  | power => exact hchain .power
  | signed =>
    refine .after (peek task) fun c => ?_
    by_cases hc : c = some '-'
    · simp only [if_pos hc]
      exact .after advance fun _ => (hinner .primary).bind fun _ => .refl _
    · simp only [if_neg hc]
      exact hinner .primary
  | primary =>
    refine .after (peek task) fun c => ?_
    cases c with
    | none => exact .refl _
    | some c =>
      by_cases hroot : c = rootSign
      · simp only [if_pos hroot]
        exact cuts_root task hmn hinner
      · simp only [if_neg hroot]
        by_cases hopen : c = '('
        · simp only [if_pos hopen]
          exact cuts_group task hmn hinner
        · simp only [if_neg hopen]
          by_cases hletter : isLetter c = true
          · simp only [if_pos hletter]
            exact cuts_identifier task hmn hinner
          · simp only [if_neg hletter]
            exact .refl _

/-- **A symbol is cut off by a lower limit.** -/
theorem cuts_symbol (hmn : m ≤ n) (steps : Nat) (X : Precedence) :
    Cuts m (symbol (task.withLimit m) steps X) (symbol (task.withLimit n) steps X) := by
  induction steps generalizing X with
  | zero => exact .refl _
  | succ steps ih => exact cuts_layer task hmn ih X

/-- A whole text is cut off by a lower limit. -/
theorem cuts_whole (hmn : m ≤ n) :
    Cuts m (whole (task.withLimit m)) (whole (task.withLimit n)) :=
  (cuts_symbol task hmn _ .sum).bind fun _ => .refl _

end

/-! ## Whole texts -/

/-- What a text evaluates to is what the evaluator finds at its end. -/
theorem exists_outcome (dialect : Dialect) (bindings : Bindings) (text : String) :
    ∃ result, outcome (whole ⟨dialect, bindings, normalChars dialect text.toList⟩) ⟨0, 0⟩
        = some result ∧
      Evaluation.of dialect bindings text = result.map fun found =>
        ⟨String.ofList (normalChars dialect text.toList), bindings, found.1.tree,
          found.1.value⟩ := by
  refine ⟨_, outcome_whole _, ?_⟩
  unfold Evaluation.of
  simp only
  cases Formula.readAndEvaluate dialect bindings (normalChars dialect text.toList) with
  | error reason => rfl
  | ok result => rfl

/-- **Under a lower limit the evaluation of a text is nested too deep or the same.** -/
theorem of_withLimit (dialect : Dialect) (bindings : Bindings) (text : String) {m n : Nat}
    (hmn : m ≤ n) :
    Evaluation.of (dialect.withLimit m) bindings text = .error (.malformed (.nestedTooDeep m)) ∨
      Evaluation.of (dialect.withLimit m) bindings text
        = Evaluation.of (dialect.withLimit n) bindings text := by
  obtain ⟨low, hlow, heval⟩ := exists_outcome (dialect.withLimit m) bindings text
  obtain ⟨high, hhigh, heval'⟩ := exists_outcome (dialect.withLimit n) bindings text
  rw [normalChars_withLimit] at hlow hhigh heval heval'
  rcases cuts_whole ⟨dialect, bindings, normalChars dialect text.toList⟩ hmn ⟨0, 0⟩
    with hstop | hsame
  · have hstopped := Option.some.inj (hlow.symm.trans hstop)
    rw [heval, hstopped]
    exact Or.inl rfl
  · have hequal := Option.some.inj ((hlow.symm.trans hsame).trans hhigh)
    rw [heval, heval', hequal]
    exact Or.inr rfl

end ComplexFormula.Positional
