/-
# Limits of nesting only cut off

What a text evaluates to does not depend on the limit of nesting, as long as the limit leaves
room for the groups, calls and roots that are open at once.

* `Evaluation.limit_lt_openings` : what is nested too deep opens more than the limit;
* `Calculator.nestingLimit_cutsOff` : the least limit that leaves room, and what is evaluated
  under it and under higher and lower ones.
-/
import ComplexFormula.Proofs.Evaluation
import ComplexFormula.Proofs.Positional.Limit
import ComplexFormula.Proofs.Unknown

namespace ComplexFormula

/-! ## Texts that are nested too deep -/

/-- **What is nested too deep opens more than the limit.** -/
theorem Evaluation.limit_lt_openings {dialect : Dialect} {bindings : Bindings} {text : String}
    {limit : Nat}
    (h : Evaluation.of dialect bindings text = .error (.malformed (.nestedTooDeep limit))) :
    dialect.nestingLimit < openings text.toList := by
  rcases Formula.readAndEvaluate_eq_error (of_eq_error_iff.1 h) with h | ⟨fault, hread, h⟩
  · cases h
  · have hfault := (FormulaError.malformed.inj h).symm
    rcases Formula.fails_of_read_eq_error hread with hfails | ⟨_, _, _, -, -, -, rfl⟩
    · rw [← openings_normalChars dialect]
      exact hfails.levels_lt_openings hfault
    · simp at hfault

/-! ## Other limits -/

/-- The calculator with another limit of nesting. -/
def Calculator.withLimit (c : Calculator) (limit : Nat) : Calculator :=
  { c with dialect := c.dialect.withLimit limit }

/-- A success under a limit is one whose depth keeps to it. -/
theorem Evaluation.of_withLimit_eq_ok_iff {dialect : Dialect} {bindings : Bindings}
    {text : String} {e : Evaluation} {limit : Nat} :
    Evaluation.of (dialect.withLimit limit) bindings text = .ok e ↔
      ∃ depth f z, depth ≤ limit ∧
        Derives dialect .sum depth f (normalChars dialect text.toList) [] ∧
        f.HasValue bindings z ∧ e = ⟨normalize dialect text, bindings, f.tree, z⟩ := by
  rw [of_eq_ok_iff, normalize, normalize, normalChars_withLimit]
  constructor
  · rintro ⟨depth, f, z, hdepth, hderives, hz, he⟩
    exact ⟨depth, f, z, hdepth, hderives.withLimit dialect.nestingLimit, hz, he⟩
  · rintro ⟨depth, f, z, hdepth, hderives, hz, he⟩
    exact ⟨depth, f, z, hdepth, hderives.withLimit limit, hz, he⟩

/-- **A limit of nesting only cuts off.** Every text has a least limit that leaves room for it,
which is no more than its parentheses and roots. Under it and all higher limits the text
evaluates to the same, and under all lower ones it is nested too deep. Where the text evaluates
to a value, the least limit is the depth of the derivation of its normal form. -/
theorem Calculator.nestingLimit_cutsOff (c : Calculator) (bindings : Bindings) (text : String) :
    ∃ (least : Nat) (outcome : Except FormulaError Evaluation),
      least ≤ openings text.toList ∧
      (∀ limit, least ≤ limit → (c.withLimit limit).evaluate bindings text
        = outcome.map fun e => { c.withLimit limit with last := some e }) ∧
      (∀ limit, limit < least → (c.withLimit limit).evaluate bindings text
        = .error (.malformed (.nestedTooDeep limit))) ∧
      (∀ limit, outcome ≠ .error (.malformed (.nestedTooDeep limit))) ∧
      ∀ e, outcome = .ok e →
        (∃ f, Derives c.dialect .sum least f (normalChars c.dialect text.toList) [] ∧
          f.tree = e.tree) ∧
        ∀ depth f, Derives c.dialect .sum depth f (normalChars c.dialect text.toList) [] →
          depth = least := by
  classical
  let run (limit : Nat) := Evaluation.of (c.dialect.withLimit limit) bindings text
  have hroom : ∀ limit, openings text.toList ≤ limit →
      ∀ limit', run limit ≠ .error (.malformed (.nestedTooDeep limit')) :=
    fun limit hle limit' h => absurd (Evaluation.limit_lt_openings h) (Nat.not_lt_of_le hle)
  have hexists : ∃ limit, run limit ≠ .error (.malformed (.nestedTooDeep limit)) :=
    ⟨_, hroom _ (Nat.le_refl _) _⟩
  -- the least limit that leaves room
  obtain ⟨least, hleast, hlower⟩ :
      ∃ least, run least ≠ .error (.malformed (.nestedTooDeep least)) ∧
        ∀ limit, limit < least → run limit = .error (.malformed (.nestedTooDeep limit)) :=
    ⟨Nat.find hexists, Nat.find_spec hexists, fun limit hlt =>
      Decidable.not_not.1 (Nat.find_min hexists hlt)⟩
  have hsame : ∀ limit, least ≤ limit → run least = run limit := fun limit hle =>
    (Positional.of_withLimit c.dialect bindings text hle).resolve_left hleast
  have hbound : least ≤ openings text.toList := by
    refine Nat.le_of_not_lt fun hlt => ?_
    exact hroom _ (Nat.le_refl _) _ (hlower _ hlt)
  refine ⟨least, run least, hbound, fun limit hle => ?_, fun limit hlt => ?_, fun limit => ?_,
    fun e he => ?_⟩
  · rw [hsame limit hle]
    exact evaluate_eq_map _ _ _
  · exact evaluate_eq_error_iff.2 (hlower limit hlt)
  · rw [hsame _ hbound]
    exact hroom _ (Nat.le_refl _) limit
  · obtain ⟨depth, f, z, hdepth, hderives, hz, rfl⟩ := Evaluation.of_withLimit_eq_ok_iff.1 he
    -- the depth leaves room for itself, so it is the least limit
    obtain rfl : depth = least := by
      refine Nat.le_antisymm hdepth (Nat.le_of_not_lt fun hlt => ?_)
      have hok := Evaluation.of_withLimit_eq_ok_iff.2
        ⟨depth, f, z, Nat.le_refl depth, hderives, hz, rfl⟩
      have herror := hlower depth hlt
      simp only [run, hok] at herror
      simp at herror
    exact ⟨⟨f, hderives, rfl⟩, fun depth' g hg => hg.depth_unique hderives⟩

end ComplexFormula
