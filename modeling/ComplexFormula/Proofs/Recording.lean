/-
# Recorded programs

A program with a state is run beside one that also keeps a list of entries. What the plain
program does is left as it is, so the list tells what happened in it.

* `Records` : a program does what another one does, and what it writes down;
* `Records.pure`, `Records.bind` : the steps of programs;
* `Console.recorded` : a console that writes down its complaints.
-/
import ComplexFormula.Command.Console

namespace ComplexFormula

variable {ε σ α β : Type}

/-! ## Writing down -/

/-- A program that writes down some entries at the end. -/
def recording (entries : List ε) (x : StateM σ α) : StateM (List ε × σ) α :=
  fun (log, s) =>
    let (value, s') := x.run s
    (value, (log ++ entries, s'))

/-- `Records x y P`: the program `x` does what `y` does and writes down some entries, where the
value and the entries satisfy `P`. -/
def Records (x : StateM (List ε × σ) α) (y : StateM σ α) (P : α → List ε → Prop) : Prop :=
  ∀ log s, ∃ entries,
    x.run (log, s) = ((y.run s).1, (log ++ entries, (y.run s).2)) ∧ P (y.run s).1 entries

namespace Records

variable {x : StateM (List ε × σ) α} {y : StateM σ α} {P Q : α → List ε → Prop}

/-- A program that writes down some entries. -/
theorem recording (entries : List ε) (y : StateM σ α) :
    Records (recording entries y) y fun _ entries' => entries' = entries :=
  fun _ _ => ⟨entries, rfl, rfl⟩

/-- What implies a property of the value and the entries. -/
theorem imp (h : Records x y P) (hPQ : ∀ a entries, P a entries → Q a entries) :
    Records x y Q := by
  intro log s
  obtain ⟨entries, hrun, hP⟩ := h log s
  exact ⟨entries, hrun, hPQ _ _ hP⟩

/-- A value alone writes nothing down. -/
theorem pure {a : α} (h : P a []) :
    Records (Pure.pure a : StateM (List ε × σ) α) (Pure.pure a : StateM σ α) P := by
  intro log s
  refine ⟨[], ?_, h⟩
  rw [List.append_nil]
  rfl

/-- Of two steps, the second one writes after the first one. -/
theorem bind {f : α → StateM (List ε × σ) β} {g : α → StateM σ β} {R : β → List ε → Prop}
    (h : Records x y P)
    (hf : ∀ a entries, P a entries →
      Records (f a) (g a) fun b entries' => R b (entries ++ entries')) :
    Records (x >>= f) (y >>= g) R := by
  intro log s
  obtain ⟨entries, hrun, hP⟩ := h log s
  obtain ⟨entries', hrun', hR⟩ := hf _ entries hP (log ++ entries) (y.run s).2
  refine ⟨entries ++ entries', ?_, hR⟩
  rw [StateT.run_bind, StateT.run_bind, hrun, ← List.append_assoc]
  exact hrun'

end Records

/-! ## Recorded consoles -/

/-- A console that writes down its complaints. -/
def Console.recorded (console : Console (StateM σ)) : Console (StateM (List String × σ)) where
  print text := recording [] (console.print text)
  complain text := recording [text] (console.complain text)
  readLine := recording [] console.readLine

end ComplexFormula
