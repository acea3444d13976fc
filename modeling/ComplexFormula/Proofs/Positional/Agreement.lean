/-
# Evaluation by positions is evaluation

Wherever the cursor stands, the evaluator by positions has an outcome, and it is the one that
the readers and the value of the formula settle. So no step of it is undefined: it never
leaves the text, never takes a range the wrong way round, and never closes what is not open.

* `settle` : what the outcome of a reader amounts to;
* `agrees_symbol` : the evaluator has that outcome, from any position on;
* `defined_everywhere` : all computations by positions have outcomes, for any text.
-/
import ComplexFormula.Proofs.Fields
import ComplexFormula.Proofs.Positional.Evaluator
import ComplexFormula.Proofs.Value

namespace ComplexFormula.Positional

open Reader

/-! ## What the outcome of a reader amounts to -/

/-- The tree and the value of a formula, or the reason why it has no value. -/
def evaluated (bindings : Bindings) (f : Formula) : Except FormulaError Evaluated :=
  (f.evaluate bindings).map fun value => ⟨f.tree, value⟩

/-- What the outcome of a reader amounts to: a fault of a part that was complete comes before
that of the text, and a formula is evaluated. -/
def settle (task : Task) (depth : Nat) : Reading → Except FormulaError (Evaluated × Cursor)
  | .error fault =>
    match Formula.check task.bindings fault.completed with
    | .error reason => .error reason
    | .ok () => .error (.malformed fault.reason)
  | .ok (f, rest) =>
    (evaluated task.bindings f).map fun result => (result, ⟨place task.text rest, depth⟩)

section

variable {bindings : Bindings} {f g : Formula} {e e' : Evaluated} {reason : FormulaError}

/-- A constant is its value. -/
theorem evaluated_constant (text : String) (value : Complex) :
    evaluated bindings (.leaf (.constant text value)) = .ok ⟨.leaf text, value⟩ := by
  rw [evaluated, Formula.evaluate_leaf, Formula.tree_leaf]
  rfl

/-- A name is looked up. -/
theorem evaluated_name (text : String) :
    evaluated bindings (.leaf (.name text))
      = match bindings.resolve? text with
        | some value => .ok ⟨.leaf text, value⟩
        | none => .error (.unknownVariable text) := by
  rw [evaluated, Formula.evaluate_leaf, Formula.tree_leaf, Operand.evaluate]
  cases bindings.resolve? text <;> rfl

/-- An evaluated formula has a value. -/
theorem exists_of_evaluated (h : evaluated bindings f = .ok e) :
    ∃ z, f.evaluate bindings = .ok z ∧ e = ⟨f.tree, z⟩ := by
  obtain ⟨z, hz, rfl⟩ := map_eq_ok_iff.1 h
  exact ⟨z, hz, rfl⟩

/-- A sign before an evaluated formula. -/
theorem evaluated_negation (h : evaluated bindings f = .ok e) :
    evaluated bindings (.unary .negation f) = .ok e.negation := by
  obtain ⟨z, hz, rfl⟩ := exists_of_evaluated h
  rw [evaluated, Formula.evaluate_unary, hz, Formula.tree_negation]
  rfl

/-- An operation on an evaluated formula. -/
theorem evaluated_operation (op : UnaryOperator) (h : evaluated bindings f = .ok e) :
    evaluated bindings (.unary (.operation op) f) = e.unary op := by
  obtain ⟨z, hz, rfl⟩ := exists_of_evaluated h
  rw [evaluated, Formula.evaluate_unary, hz, Formula.tree_operation, Evaluated.unary]
  simp only [Except.bind, Modifier.apply]
  cases op.apply z <;> rfl

/-- An operator between evaluated formulas. -/
theorem evaluated_binary (op : BinaryOperator) (hf : evaluated bindings f = .ok e)
    (hg : evaluated bindings g = .ok e') :
    evaluated bindings (.binary op f g) = e.binary op e' := by
  obtain ⟨z, hz, rfl⟩ := exists_of_evaluated hf
  obtain ⟨w, hw, rfl⟩ := exists_of_evaluated hg
  rw [evaluated, Formula.evaluate_binary, hz, hw, Formula.tree_binary, Evaluated.binary]
  simp only [Except.bind]
  cases op.apply z w <;> rfl

/-- A formula with an operand without a value has none for the same reason. -/
theorem evaluated_unary_error (op : Modifier) (h : evaluated bindings f = .error reason) :
    evaluated bindings (.unary op f) = .error reason := by
  rw [evaluated, map_eq_error_iff] at h ⊢
  rw [Formula.evaluate_unary, h]
  rfl

/-- Of two operands the left one is evaluated first. -/
theorem evaluated_left_error (op : BinaryOperator) (h : evaluated bindings f = .error reason) :
    evaluated bindings (.binary op f g) = .error reason := by
  rw [evaluated, map_eq_error_iff] at h ⊢
  rw [Formula.evaluate_binary, h]
  rfl

/-- The right operand is evaluated behind the left one. -/
theorem evaluated_right_error (op : BinaryOperator) (hf : evaluated bindings f = .ok e)
    (hg : evaluated bindings g = .error reason) :
    evaluated bindings (.binary op f g) = .error reason := by
  obtain ⟨z, hz, -⟩ := exists_of_evaluated hf
  rw [evaluated, map_eq_error_iff] at hg ⊢
  rw [Formula.evaluate_binary, hz, hg]
  rfl

/-- A complete formula with a value is passed. -/
theorem check_cons_of_ok (h : evaluated bindings f = .ok e) (rest : List Formula) :
    Formula.check bindings (f :: rest) = Formula.check bindings rest := by
  obtain ⟨z, hz, -⟩ := exists_of_evaluated h
  rw [Formula.check, hz]

/-- A complete formula without a value gives the reason. -/
theorem check_cons_of_error (h : evaluated bindings f = .error reason) (rest : List Formula) :
    Formula.check bindings (f :: rest) = .error reason := by
  rw [evaluated, map_eq_error_iff] at h
  rw [Formula.check, h]

end

section

variable {task : Task} {depth depth' : Nat} {cursor : Cursor} {f : Formula}
  {rest : List Char} {e : Evaluated} {reason : FormulaError} {fault : Fault}
  {x : Run Evaluated} {next : Evaluated → Run Evaluated}

/-- A formula with a value is read up to its rest. -/
theorem settle_of_ok (h : evaluated task.bindings f = .ok e) :
    settle task depth (.ok (f, rest)) = .ok (e, ⟨place task.text rest, depth⟩) := by
  rw [settle, h]
  rfl

/-- A formula without a value gives the reason. -/
theorem settle_of_error (h : evaluated task.bindings f = .error reason) :
    settle task depth (.ok (f, rest)) = .error reason := by
  rw [settle, h]
  rfl

/-- A formula with a value before a fault is passed. -/
theorem settle_after (h : evaluated task.bindings f = .ok e) :
    settle task depth (.error (fault.after f)) = settle task depth (.error fault) := by
  rw [settle, Fault.after, check_cons_of_ok h]
  rfl

/-- A fault has a reason, wherever the cursor stands. -/
theorem exists_settle_fault (task : Task) (fault : Fault) :
    ∃ reason, ∀ depth, settle task depth (.error fault) = .error reason := by
  cases hcheck : Formula.check task.bindings fault.completed with
  | error reason => exact ⟨reason, fun depth => by rw [settle, hcheck]⟩
  | ok => exact ⟨.malformed fault.reason, fun depth => by rw [settle, hcheck]⟩

/-- A program stops where reading breaks off. -/
theorem outcome_bind_of_fault
    (h : outcome x cursor = some (settle task depth (.error fault))) :
    outcome (x >>= next) cursor = some (settle task depth' (.error fault)) := by
  obtain ⟨reason, hreason⟩ := exists_settle_fault task fault
  rw [hreason] at h ⊢
  exact outcome_bind_of_error h

/-- A program stops behind a formula without a value. -/
theorem outcome_bind_of_evaluated_error
    (h : outcome x cursor = some (settle task depth (.ok (f, rest))))
    (hf : evaluated task.bindings f = .error reason) :
    outcome (x >>= next) cursor = some (.error reason) := by
  rw [settle_of_error hf] at h
  exact outcome_bind_of_error h

/-- A program goes on behind a formula with its value. -/
theorem outcome_bind_of_evaluated
    (h : outcome x cursor = some (settle task depth (.ok (f, rest))))
    (hf : evaluated task.bindings f = .ok e) :
    outcome (x >>= next) cursor = outcome (next e) ⟨place task.text rest, depth⟩ := by
  rw [settle_of_ok hf] at h
  exact outcome_bind_of_ok h

/-- A program that evaluates a part first. Where reading breaks off in the part it breaks off as
a whole, where the part has no value the whole has none, and else the program goes on. -/
theorem outcome_bind {part all : Reading} (h : outcome x cursor = some (settle task depth part))
    (hfault : ∀ fault, part = .error fault → all = .error fault)
    (herror : ∀ f rest reason, part = .ok (f, rest) → evaluated task.bindings f = .error reason →
      settle task depth' all = .error reason)
    (hok : ∀ f rest e, part = .ok (f, rest) → evaluated task.bindings f = .ok e →
      outcome (next e) ⟨place task.text rest, depth⟩ = some (settle task depth' all)) :
    outcome (x >>= next) cursor = some (settle task depth' all) := by
  cases part with
  | error fault =>
    rw [hfault fault rfl]
    exact outcome_bind_of_fault h
  | ok result =>
    obtain ⟨f, rest⟩ := result
    cases hvalue : evaluated task.bindings f with
    | error reason =>
      rw [outcome_bind_of_evaluated_error h hvalue, herror f rest reason rfl hvalue]
    | ok e => rw [outcome_bind_of_evaluated h hvalue, hok f rest e rfl hvalue]

end

/-- A chain whose left part has no value has none for the same reason. -/
theorem settle_chainFrom_of_error {task : Task} {depth : Nat}
    {operator? : Char → Option BinaryOperator} {operand : Reader} {left : Formula}
    {s : List Char} {reason : FormulaError}
    (h : evaluated task.bindings left = .error reason) :
    settle task depth (chainFrom operator? operand left s) = .error reason := by
  fun_induction chainFrom operator? operand left s with
  | case1 left => rw [settle, h]; rfl
  | case2 left c tail hop => rw [settle, h]; rfl
  | case3 left c tail op hop fault hread =>
    rw [settle, Fault.after, check_cons_of_error h]
  | case4 left c tail op hop right rest hread ih => exact ih (evaluated_left_error op h)

/-- A group whose formula has no value has none for the same reason. -/
theorem settle_close_of_error {task : Task} {page : Page} {depth : Nat} {inside rest : List Char}
    {f : Formula} {reason : FormulaError} (h : evaluated task.bindings f = .error reason) :
    settle task depth (close page inside f rest) = .error reason := by
  unfold close
  split
  · exact settle_of_error h
  · split
    · rw [settle, check_cons_of_error h]
    · rw [settle, check_cons_of_error h]

/-! ## Chains and signs -/

/-- The page of the text. -/
def Task.page (task : Task) : Page := Page.ofText task.dialect task.text

/-- A program evaluates a symbol at the start of a rest as the readers settle it, with as many
levels as the limit leaves. -/
def Agrees (task : Task) (program : Run Evaluated) (X : Precedence) (s : List Char) : Prop :=
  ∀ levels depth, depth + levels = task.dialect.nestingLimit →
    outcome program ⟨place task.text s, depth⟩
      = some (settle task depth ((X.reader (primary task.page levels)).read s))

/-- The symbols are evaluated as the readers settle them, at rests that are shorter than a
length. -/
def AgreesBelow (task : Task) (inner : Precedence → Run Evaluated) (length : Nat) : Prop :=
  ∀ X s, s <:+ task.text → s.length < length → Agrees task (inner X) X s

/-- They are at rests that are shorter than a smaller length. -/
theorem AgreesBelow.mono {task : Task} {inner : Precedence → Run Evaluated} {m n : Nat}
    (h : AgreesBelow task inner n) (hmn : m ≤ n) : AgreesBelow task inner m :=
  fun X s hs hm => h X s hs (Nat.lt_of_lt_of_le hm hmn)

section

variable {task : Task} {inner : Precedence → Run Evaluated} {levels depth : Nat}
  {X : Precedence} {s : List Char}

/-- A reader takes a balanced text. -/
theorem exists_balanced_of_read {f : Formula} {rest : List Char}
    (h : (X.reader (primary task.page levels)).read s = .ok (f, rest)) :
    ∃ q, q ++ rest = s ∧ Balanced q := by
  obtain ⟨depth, -, hderives⟩ := exists_derives_of_read h
  obtain ⟨q, hq, -, hbalanced⟩ := hderives.exists_balanced
  exact ⟨q, hq.symm, hbalanced⟩

/-- What a reader leaves is a rest of what it was given. -/
theorem suffix_of_read_symbol {f : Formula} {rest : List Char}
    (h : (X.reader (primary task.page levels)).read s = .ok (f, rest)) : rest <:+ s := by
  obtain ⟨q, rfl, -⟩ := exists_balanced_of_read h
  exact List.suffix_append q rest

/-- The cursor sees the first character of what is left. -/
theorem outcome_peek_place (hs : s <:+ task.text) :
    outcome (peek task) ⟨place task.text s, depth⟩
      = some (.ok (s.head?, ⟨place task.text s, depth⟩)) := by
  rw [outcome_peek, getElem?_place hs]

/-- The cursor moves on to what is left behind a character. -/
theorem outcome_advance_place {c : Char} (hs : c :: s <:+ task.text) :
    outcome advance ⟨place task.text (c :: s), depth⟩
      = some (.ok ((), ⟨place task.text s, depth⟩)) := by
  rw [outcome_advance, place_cons hs]

/-- A chain that goes on after its left part. -/
theorem outcome_chain {steps : Nat} (hinner : AgreesBelow task inner s.length)
    (hsteps : s.length ≤ steps) (hdepth : depth + levels = task.dialect.nestingLimit)
    {left : Formula} {e : Evaluated} (hleft : evaluated task.bindings left = .ok e)
    (hs : s <:+ task.text) :
    outcome (chain task X (inner X.tighter) (steps + 1) e) ⟨place task.text s, depth⟩
      = some (settle task depth (chainFrom X.operator?
          (X.tighter.reader (primary task.page levels)) left s)) := by
  -- the left part grows with each operand, as long as it has a value
  fun_induction chainFrom X.operator? (X.tighter.reader (primary task.page levels)) left s
    generalizing e steps with
  | case1 left =>
    rw [chain, outcome_bind_of_ok (outcome_peek_place hs), settle_of_ok hleft]
    rfl
  | case2 left c tail hop =>
    rw [chain, outcome_bind_of_ok (outcome_peek_place hs), settle_of_ok hleft]
    simp only [List.head?_cons, Option.bind_some, hop]
    rfl
  | case3 left c tail op hop fault hread =>
    have htail := (List.suffix_cons c tail).trans hs
    have hright := hinner X.tighter tail htail (Nat.lt_succ_self _) levels depth hdepth
    rw [hread] at hright
    rw [chain, outcome_bind_of_ok (outcome_peek_place hs)]
    simp only [List.head?_cons, Option.bind_some, hop]
    rw [outcome_bind_of_ok (outcome_advance_place hs), settle_after hleft]
    exact outcome_bind_of_fault hright
  | case4 left c tail op hop right rest hread ih =>
    have htail := (List.suffix_cons c tail).trans hs
    have hright := hinner X.tighter tail htail (Nat.lt_succ_self _) levels depth hdepth
    have hrest := suffix_of_read_symbol hread
    rw [hread] at hright
    rw [chain, outcome_bind_of_ok (outcome_peek_place hs)]
    simp only [List.head?_cons, Option.bind_some, hop]
    rw [outcome_bind_of_ok (outcome_advance_place hs)]
    cases hvalue : evaluated task.bindings right with
    | error reason =>
      rw [outcome_bind_of_evaluated_error hright hvalue,
        settle_chainFrom_of_error (evaluated_right_error op hleft hvalue)]
    | ok e' =>
      rw [outcome_bind_of_evaluated hright hvalue]
      have hbinary := evaluated_binary op hleft hvalue
      cases happly : e.binary op e' with
      | error reason =>
        rw [happly] at hbinary
        rw [settle_chainFrom_of_error hbinary]
        rfl
      | ok e'' =>
        rw [happly] at hbinary
        -- the operator has used up one character
        have hshorter := Nat.lt_of_le_of_lt hrest.length_le (Nat.lt_succ_self tail.length)
        obtain ⟨steps, rfl⟩ : ∃ n, steps = n + 1 :=
          Nat.exists_eq_succ_of_ne_zero (Nat.ne_zero_of_lt hsteps)
        exact ih (hinner.mono (Nat.le_of_lt hshorter))
          (Nat.le_of_lt_succ (Nat.lt_of_lt_of_le hshorter hsteps)) hbinary (hrest.trans htail)

/-- A chain of operands. -/
theorem agrees_chain (hX : X.rank < 3) (hs : s <:+ task.text)
    (hinner : AgreesBelow task inner s.length)
    (hoperand : Agrees task (inner X.tighter) X.tighter s) :
    Agrees task (layer task inner X) X s := by
  intro levels depth hdepth
  have hfirst := hoperand levels depth hdepth
  have hlayer : layer task inner X = inner X.tighter >>=
      chain task X (inner X.tighter) (task.text.length + 1) := by
    rw [layer]
    · rintro rfl
      exact absurd hX (by decide)
    · rintro rfl
      exact absurd hX (by decide)
  rw [hlayer, Precedence.reader_eq_chain hX]
  simp only [Reader.chain]
  refine outcome_bind hfirst (fun fault hread => ?_) (fun first rest reason hread hvalue => ?_)
    fun first rest e hread hvalue => ?_
  · simp only [hread]
  · simp only [hread, settle_chainFrom_of_error hvalue]
  · have hrest := suffix_of_read_symbol hread
    simp only [hread]
    exact outcome_chain (hinner.mono hrest.length_le) (hrest.trans hs).length_le hdepth hvalue
      (hrest.trans hs)

/-- A primary, or a sign and a primary. -/
theorem agrees_signed (hs : s <:+ task.text) (hinner : AgreesBelow task inner s.length)
    (hprimary : Agrees task (inner .primary) .primary s) :
    Agrees task (layer task inner .signed) .signed s := by
  intro levels depth hdepth
  rw [layer, outcome_bind_of_ok (outcome_peek_place hs)]
  cases s with
  | nil => exact hprimary levels depth hdepth
  | cons c s =>
    by_cases hsign : c = '-'
    · subst hsign
      have htail := (List.suffix_cons _ s).trans hs
      have hoperand := hinner .primary s htail (Nat.lt_succ_self _) levels depth hdepth
      rw [List.head?_cons, if_pos rfl, outcome_bind_of_ok (outcome_advance_place hs)]
      simp only [Precedence.reader, signed] at hoperand ⊢
      refine outcome_bind hoperand (fun fault hread => ?_) (fun f rest reason hread hvalue => ?_)
        fun f rest e hread hvalue => ?_
      · simp only [hread]
      · simp only [hread, settle_of_error (evaluated_unary_error _ hvalue)]
      · simp only [hread, settle_of_ok (evaluated_negation hvalue)]
        rfl
    · rw [List.head?_cons, if_neg fun h => hsign (Option.some.inj h)]
      rw [hprimary levels depth hdepth]
      simp only [Precedence.reader, signed]
      split
      · next h => exact absurd (List.cons.inj h).1 hsign
      · rfl

/-! ## Parentheses -/

/-- The first position from which on a search is counted is added to what it finds. -/
theorem closingIndexFrom?_eq_map (level index : Nat) (s : List Char) :
    closingIndexFrom? level index s = (closingIndexFrom? level 0 s).map (index + ·) := by
  induction s generalizing level index with
  | nil => rfl
  | cons c s ih =>
    have hadd : (fun k => index + k) ∘ (fun k => 0 + 1 + k) = fun k => index + 1 + k := by
      funext k
      simp only [Function.comp]
      omega
    unfold closingIndexFrom?
    split
    · cases level with
      | zero => rfl
      | succ level =>
        simp only
        rw [ih level (index + 1), ih level (0 + 1), Option.map_map, hadd]
    · split
      · rw [ih (level + 1) (index + 1), ih (level + 1) (0 + 1), Option.map_map, hadd]
      · rw [ih level (index + 1), ih level (0 + 1), Option.map_map, hadd]

/-- **The search for a closing parenthesis never counts below zero**, because it ends where
the count gets there. -/
theorem matchingCloseFrom_place {text s : List Char} (h : s <:+ text) (level : Nat) :
    matchingCloseFrom text (level + 1) (place text s)
      = some (closingIndexFrom? level (place text s) s) := by
  induction s generalizing level with
  | nil =>
    rw [matchingCloseFrom, place_nil, if_neg (Nat.lt_irrefl _)]
    rfl
  | cons c s ih =>
    have htail := (List.suffix_cons c s).trans h
    rw [matchingCloseFrom, if_pos (place_lt h), getElem?_place h]
    simp only [List.head?_cons, Option.bind_eq_bind, Option.bind_some]
    unfold closingIndexFrom?
    by_cases hopen : c = '('
    · subst hopen
      rw [if_pos rfl, if_neg (by decide), if_pos rfl, place_cons h, ih htail]
    · rw [if_neg hopen]
      by_cases hclose : c = ')'
      · rw [if_pos hclose, if_pos hclose]
        cases level with
        | zero => rfl
        | succ level =>
          rw [Nat.ppred_succ, place_cons h, ← ih htail]
          rfl
      · rw [if_neg hclose, if_neg hclose, if_neg hopen, place_cons h, ih htail]

/-- The position of the parenthesis that closes another one. -/
theorem matchingClose_place {text inside : List Char} (h : '(' :: inside <:+ text) :
    matchingClose text (place text ('(' :: inside))
      = some ((closingIndex? inside).map (place text inside + ·)) := by
  rw [matchingClose, matchingCloseFrom, if_pos (place_lt h), getElem?_place h]
  simp only [List.head?_cons, Option.bind_eq_bind, Option.bind_some, ↓reduceIte]
  rw [place_cons h, matchingCloseFrom_place ((List.suffix_cons _ _).trans h),
    closingIndexFrom?_eq_map]
  rfl

/-- Before the content of a group stands its parenthesis. -/
theorem position_sub_one {inside : List Char} (hs : '(' :: inside <:+ task.text) :
    task.page.position inside - 1 = place task.text ('(' :: inside) := by
  show place task.text inside - 1 = _
  rw [← place_cons hs, Nat.add_sub_cancel]

/-- What the end of a group amounts to, behind a formula that has a value. -/
theorem outcome_expectClose (depth : Nat) {inside q rest : List Char} {f : Formula} {e : Evaluated}
    (hs : '(' :: inside <:+ task.text) (hq : q ++ rest = inside) (hbalanced : Balanced q)
    (hf : evaluated task.bindings f = .ok e) :
    outcome (expectClose task (place task.text ('(' :: inside))) ⟨place task.text rest, depth⟩
      = some ((settle task depth (close task.page inside f rest)).map
          fun result => ((), result.2)) := by
  have hinside := (List.suffix_cons _ inside).trans hs
  have hrest : rest <:+ task.text := by
    refine List.IsSuffix.trans ⟨q, hq⟩ hinside
  have hcheck : Formula.check task.bindings [f] = .ok () := by
    rw [check_cons_of_ok hf]
    rfl
  rw [expectClose, outcome_bind_of_ok (outcome_peek_place hrest)]
  by_cases hhead : rest.head? = some ')'
  · obtain ⟨tail, rfl⟩ := List.head?_eq_some_iff.1 hhead
    rw [if_pos hhead, outcome_advance_place hrest, close_eq_ok_iff.2 ⟨rfl, rfl⟩,
      settle_of_ok hf]
    rfl
  · rw [if_neg hhead, matchingClose_place hs]
    cases hindex : closingIndex? inside with
    | none =>
      rw [close_of_unclosed hhead hindex]
      simp only [settle, hcheck, position_sub_one hs]
      rfl
    | some index =>
      subst hq
      obtain ⟨content, back, hcontent, hcontentBalanced, rfl⟩ :=
        closingIndex?_eq_some_iff.1 hindex
      obtain ⟨u, rfl, rfl, -⟩ := hbalanced.exists_of_append_close hcontentBalanced hcontent
      -- the group ends behind at least one more character
      have hclose : place task.text (q ++ (u ++ ')' :: back)) + (q ++ u).length
          = place task.text (')' :: back) := by
        rw [List.length_append, ← Nat.add_assoc, place_append_add hinside, place_append_add hrest]
      have hbefore : place task.text (u ++ ')' :: back) < place task.text (')' :: back) := by
        rw [← place_append_add hrest]
        refine Nat.lt_add_of_pos_right (List.length_pos_iff.2 ?_)
        rintro rfl
        exact hhead rfl
      rw [close_of_left hhead hindex, Option.map_some, outcome_bind_of_ok (outcome_defined _)]
      simp only [hclose]
      rw [outcome_bind_of_ok outcome_here, outcome_bind_of_ok (outcome_guard hbefore),
        slice?_place hrest rfl, outcome_bind_of_ok (outcome_defined _)]
      simp only [settle, hcheck]
      rfl

/-- What stands in parentheses is evaluated up to their end. -/
theorem outcome_enclosed (depth : Nat) {inside : List Char}
    (hinner : Agrees task (inner .sum) .sum inside) (hs : '(' :: inside <:+ task.text)
    (hdepth : depth + 1 + levels = task.dialect.nestingLimit) :
    outcome (enclosed task inner (place task.text ('(' :: inside)))
        ⟨place task.text inside, depth + 1⟩
      = some (settle task depth
          (readEnclosed task.page (.ok (primary task.page levels)) inside)) := by
  have hinside := (List.suffix_cons _ inside).trans hs
  have hsum := hinner levels (depth + 1) hdepth
  simp only [Precedence.reader] at hsum
  rw [enclosed]
  simp only [readEnclosed]
  refine outcome_bind hsum (fun fault hread => ?_) (fun f rest reason hread hvalue => ?_)
    fun f rest e hread hvalue => ?_
  · simp only [hread]
  · simp only [hread, settle_close_of_error hvalue]
  · obtain ⟨q, hq, hbalanced⟩ := exists_balanced_of_read (X := .sum) hread
    have hclose := outcome_expectClose (depth + 1) hs hq hbalanced hvalue
    simp only [hread]
    cases hend : close task.page inside f rest with
    | error fault =>
      obtain ⟨reason, hreason⟩ := exists_settle_fault task fault
      rw [hend, hreason] at hclose
      rw [hreason]
      exact outcome_bind_of_error hclose
    | ok result =>
      obtain ⟨g, rest'⟩ := result
      obtain ⟨rfl, rfl⟩ := close_eq_ok_iff.1 hend
      rw [hend, settle_of_ok hvalue] at hclose
      rw [outcome_bind_of_ok hclose, settle_of_ok hvalue, outcome_bind_of_ok (outcome_leave _ _)]
      rfl

/-! ## Primaries -/

/-- A root. -/
theorem outcome_root (hinner : AgreesBelow task inner (s.length + 1))
    (hdepth : depth + levels = task.dialect.nestingLimit) (hs : rootSign :: s <:+ task.text) :
    outcome (root task inner) ⟨place task.text (rootSign :: s), depth⟩
      = some (settle task depth (readRoot (nestedReader task.page levels) s)) := by
  have htail := (List.suffix_cons _ s).trans hs
  rw [root, outcome_bind_of_ok (outcome_advance_place hs)]
  cases levels with
  | zero =>
    rw [outcome_bind_of_error (outcome_enter_of_eq hdepth)]
    rfl
  | succ n =>
    rw [outcome_bind_of_ok (outcome_enter_of_lt hdepth)]
    have hoperand := hinner .signed s htail (Nat.lt_succ_self _) n (depth + 1) (by omega)
    simp only [Precedence.reader] at hoperand
    simp only [readRoot, nestedReader]
    refine outcome_bind hoperand (fun fault hread => ?_) (fun f rest reason hread hvalue => ?_)
      fun f rest e hread hvalue => ?_
    · simp only [hread]
    · simp only [hread, settle_of_error (evaluated_unary_error _ hvalue)]
    · simp only [hread]
      rw [outcome_bind_of_ok (outcome_leave _ _), outcome_lift, settle,
        evaluated_operation .root hvalue]

/-- A group. -/
theorem outcome_group (hinner : AgreesBelow task inner (s.length + 1))
    (hdepth : depth + levels = task.dialect.nestingLimit) (hs : '(' :: s <:+ task.text) :
    outcome (group task inner) ⟨place task.text ('(' :: s), depth⟩
      = some (settle task depth (readGroup task.page (nestedReader task.page levels) s)) := by
  have htail := (List.suffix_cons _ s).trans hs
  rw [group, outcome_bind_of_ok outcome_here, matchingClose_place hs, readGroup]
  cases hindex : closingIndex? s with
  | none =>
    rw [Option.map_none, outcome_bind_of_ok (outcome_defined _)]
    simp only [position_sub_one hs]
    rfl
  | some index =>
    obtain ⟨content, rest, rfl, hcontent, rfl⟩ := closingIndex?_eq_some_iff.1 hindex
    have hclose := place_append_add htail
    have hrest : ')' :: rest <:+ task.text := (List.suffix_append content _).trans htail
    rw [Option.map_some, outcome_bind_of_ok (outcome_defined _)]
    simp only [hclose]
    cases levels with
    | zero =>
      rw [outcome_bind_of_error (outcome_enter_of_eq hdepth)]
      rfl
    | succ n =>
      rw [outcome_bind_of_ok (outcome_enter_of_lt hdepth), place_cons hs,
        slice?_place htail rfl, outcome_bind_of_ok (outcome_defined _), ofLiteral_eq,
        outcome_bind_of_ok (outcome_defined _)]
      simp only [nestedReader, List.take_left]
      rcases groupLiteral?_eq content with ⟨value, hvalue, hgroup⟩ | ⟨hliteral, hgroup⟩
      · rw [hgroup, hvalue]
        simp only
        rw [outcome_bind_of_ok (outcome_moveTo _), outcome_bind_of_ok (outcome_leave _ _),
          place_cons hrest, drop_content, settle_of_ok (evaluated_constant _ _)]
        rfl
      · rw [hgroup]
        cases hvalue : Complex.ofLiteral (literalText content) with
        | ok value => exact absurd hvalue (hliteral value)
        | error reason =>
          simp only
          rw [outcome_bind_of_ok (outcome_moveTo _)]
          exact outcome_enclosed depth (hinner .sum _ htail (Nat.lt_succ_self _)) hs (by omega)

/-- A call or a name. -/
theorem outcome_identifier {c : Char} (hc : isLetter c = true)
    (hinner : AgreesBelow task inner (s.length + 1))
    (hdepth : depth + levels = task.dialect.nestingLimit) (hs : c :: s <:+ task.text) :
    outcome (identifier task inner) ⟨place task.text (c :: s), depth⟩
      = some (settle task depth
          (Reader.readIdentifier task.page (nestedReader task.page levels) (c :: s))) := by
  rw [identifier, outcome_bind_of_ok outcome_here, readIdentifier_place hs,
    outcome_bind_of_ok (outcome_defined _), Reader.readIdentifier]
  cases hread : Identifier.read task.dialect (c :: s) with
  | mk word rest =>
    have hrest := suffix_of_read hs hread
    rw [show Identifier.read task.page.dialect (c :: s) = _ from hread]
    cases word with
    | name letters =>
      simp only
      cases hvalue : task.bindings.resolve? (String.ofList letters) with
      | none =>
        rw [settle_of_error (by rw [evaluated_name, hvalue])]
        rfl
      | some value =>
        rw [settle_of_ok (by rw [evaluated_name, hvalue])]
        rfl
    | call f =>
      obtain ⟨inside, rfl⟩ := Identifier.exists_of_read_call hread
      simp only [List.tail_cons]
      rw [outcome_bind_of_ok (outcome_moveTo _), place_cons hrest]
      cases levels with
      | zero =>
        rw [outcome_bind_of_error (outcome_enter_of_eq hdepth)]
        rfl
      | succ n =>
        rw [outcome_bind_of_ok (outcome_enter_of_lt hdepth)]
        have hshorter := Identifier.length_read_lt task.dialect hc s
        rw [hread] at hshorter
        have hsum : Agrees task (inner .sum) .sum inside :=
          hinner .sum inside ((List.suffix_cons _ _).trans hrest) (Nat.lt_of_succ_lt hshorter)
        have hlevels : depth + 1 + n = task.dialect.nestingLimit := by omega
        have henclosed := outcome_enclosed depth hsum hrest hlevels
        simp only [nestedReader]
        refine outcome_bind henclosed (fun fault hinside => ?_)
          (fun argument rest' reason hinside hvalue => ?_)
          fun argument rest' e hinside hvalue => ?_
        · simp only [hinside]
        · simp only [hinside, settle_of_error (evaluated_unary_error _ hvalue)]
        · simp only [hinside]
          rw [outcome_lift, settle, evaluated_operation (.call f) hvalue]

/-- A numeral. -/
theorem outcome_numeral (hs : s <:+ task.text) :
    outcome (numeral task) ⟨place task.text s, depth⟩
      = some (settle task depth (readNumeral task.page s)) := by
  have hsplit : s.takeWhile isNumeralChar ++ s.dropWhile isNumeralChar = s :=
    List.takeWhile_append_dropWhile
  rw [numeral, outcome_bind_of_ok outcome_here, runEnd_place _ hs,
    outcome_bind_of_ok (outcome_defined _), outcome_bind_of_ok (outcome_moveTo _), readNumeral]
  by_cases hrun : s.takeWhile isNumeralChar = []
  · rw [hrun, List.nil_append] at hsplit
    rw [if_pos (by rw [hsplit]), hrun, hsplit, outcome_bind_of_ok (outcome_peek_place hs)]
    simp only [List.isEmpty_nil, ↓reduceIte, List.take_one]
    rfl
  · have hempty : (s.takeWhile isNumeralChar).isEmpty = false := by simpa using hrun
    have hmoved : place task.text (s.dropWhile isNumeralChar) ≠ place task.text s := by
      have := place_append_add (hsplit ▸ hs)
      have hpos := List.length_pos_iff.2 hrun
      rw [hsplit] at this
      omega
    rw [if_neg hmoved, slice?_place hs hsplit, outcome_bind_of_ok (outcome_defined _)]
    simp only [hempty, Bool.false_eq_true, ↓reduceIte]
    cases hread : Numeral.read? (s.takeWhile isNumeralChar) with
    | none => rfl
    | some n =>
      rw [settle_of_ok (evaluated_constant _ _)]
      rfl

/-- A primary. -/
theorem agrees_primary (hs : s <:+ task.text) (hinner : AgreesBelow task inner s.length) :
    Agrees task (layer task inner .primary) .primary s := by
  intro levels depth hdepth
  rw [layer, outcome_bind_of_ok (outcome_peek_place hs), Precedence.reader, read_primary]
  cases s with
  | nil => exact outcome_numeral hs
  | cons c s =>
    rw [readPrimary]
    simp only [List.head?_cons]
    by_cases hroot : c = rootSign
    · subst hroot
      rw [if_pos rfl, if_pos rfl]
      exact outcome_root hinner hdepth hs
    · rw [if_neg hroot, if_neg hroot]
      by_cases hopen : c = '('
      · subst hopen
        rw [if_pos rfl, if_pos rfl]
        exact outcome_group hinner hdepth hs
      · rw [if_neg hopen, if_neg hopen]
        by_cases hletter : isLetter c = true
        · rw [if_pos hletter, if_pos hletter]
          exact outcome_identifier hletter hinner hdepth hs
        · rw [if_neg hletter, if_neg hletter]
          exact outcome_numeral hs

/-- A symbol, when the symbols in it are evaluated as the readers settle them: the next one at
the same place, and all of them further on. -/
theorem agrees_layer (X : Precedence) (hs : s <:+ task.text)
    (hinner : AgreesBelow task inner s.length)
    (htighter : X.rank < 4 → Agrees task (inner X.tighter) X.tighter s) :
    Agrees task (layer task inner X) X s := by
  cases X with
  | sum => exact agrees_chain (by decide) hs hinner (htighter (by decide))
  | product => exact agrees_chain (by decide) hs hinner (htighter (by decide))
  | power => exact agrees_chain (by decide) hs hinner (htighter (by decide))
  | signed => exact agrees_signed hs hinner (htighter (by decide))
  | primary => exact agrees_primary hs hinner

/-- **Every symbol is evaluated as the readers settle it**, if the steps last for five symbols
at each position. -/
theorem agrees_symbol {steps : Nat} (hs : s <:+ task.text)
    (hsteps : 5 * s.length + (4 - X.rank) < steps) : Agrees task (symbol task steps X) X s := by
  -- a step goes on to a tighter symbol at the same place, or to any symbol further on
  induction steps generalizing X s with
  | zero => exact absurd hsteps (Nat.not_lt_zero _)
  | succ steps ih =>
    refine agrees_layer X hs (fun Y t ht hshorter => ih ht ?_) fun hX => ih hs ?_
    · omega
    · have htighter : X.tighter.rank = X.rank + 1 := by
        cases X <;> first | rfl | exact absurd hX (by decide)
      omega

end

/-! ## Whole texts -/

/-- The whole text. -/
theorem outcome_whole (task : Task) :
    outcome (whole task) ⟨0, 0⟩
      = some ((Formula.readAndEvaluate task.dialect task.bindings task.text).map
          fun result => (⟨result.1.tree, result.2⟩, ⟨task.text.length, 0⟩)) := by
  have hsuffix := List.suffix_refl task.text
  have hsum : Agrees task (symbol task (5 * task.text.length + 5) .sum) .sum task.text :=
    agrees_symbol hsuffix (Nat.lt_succ_self _)
  replace hsum := hsum task.dialect.nestingLimit 0 (Nat.zero_add _)
  rw [place_self] at hsum
  unfold whole Formula.readAndEvaluate Formula.read
  change outcome (symbol task (5 * task.text.length + 5) .sum) ⟨0, 0⟩
    = some (settle task 0 ((Formula.reader task.page).read task.text)) at hsum
  simp only [show Page.ofText task.dialect task.text = task.page from rfl]
  cases hread : (Formula.reader task.page).read task.text with
  | error fault =>
    rw [hread] at hsum
    obtain ⟨reason, hreason⟩ := exists_settle_fault task fault
    rw [hreason] at hsum
    have hcheck := hreason 0
    rw [settle] at hcheck
    rw [outcome_bind_of_error hsum]
    simp only
    cases hfault : Formula.check task.bindings fault.completed with
    | error reason' =>
      rw [hfault] at hcheck
      rw [← Except.error.inj hcheck]
      rfl
    | ok =>
      rw [hfault] at hcheck
      rw [← Except.error.inj hcheck]
      rfl
  | ok result =>
    obtain ⟨f, rest⟩ := result
    have hrest := suffix_of_read_symbol (X := .sum) hread
    rw [hread] at hsum
    cases hvalue : evaluated task.bindings f with
    | error reason =>
      rw [outcome_bind_of_evaluated_error hsum hvalue]
      have hf : f.evaluate task.bindings = .error reason := map_eq_error_iff.1 hvalue
      cases rest with
      | nil => simp only [hf]; rfl
      | cons c rest => simp only [Formula.check, hf]; rfl
    | ok e =>
      obtain ⟨z, hz, rfl⟩ := exists_of_evaluated hvalue
      rw [outcome_bind_of_evaluated hsum hvalue, outcome_bind_of_ok outcome_here]
      cases rest with
      | nil =>
        rw [if_neg (by rw [place_nil]; exact Nat.lt_irrefl _), place_nil]
        simp only [hz]
        rfl
      | cons c rest =>
        have hslice : slice? task.text (place task.text (c :: rest)) task.text.length
            = some (c :: rest) := slice?_place hrest (List.append_nil _)
        rw [if_pos (place_lt hrest), hslice, outcome_bind_of_ok (outcome_defined _)]
        simp only [Formula.check, hz]
        rfl

/-- The normal form of a text and what it evaluates to. -/
theorem run_parse (dialect : Dialect) (bindings : Bindings) (text : String) :
    (parse dialect bindings text).run
      = some ((Formula.readAndEvaluate dialect bindings (normalChars dialect text.toList)).map
          fun result =>
            (ComplexFormula.normalize dialect text, ⟨result.1.tree, result.2⟩)) := by
  have hwhole := outcome_whole
    ⟨dialect, bindings, (ComplexFormula.normalize dialect text).toList⟩
  rw [outcome, ComplexFormula.normalize, String.toList_ofList] at hwhole
  rw [parse, normalize_eq, ComplexFormula.normalize]
  show Option.bind ((whole ⟨dialect, bindings,
    (String.ofList (normalChars dialect text.toList)).toList⟩).run ⟨0, 0⟩).run _ = _
  rw [String.toList_ofList, hwhole]
  cases Formula.readAndEvaluate dialect bindings (normalChars dialect text.toList) with
  | error reason => rfl
  | ok result => rfl

/-- A calculator evaluates by positions what it evaluates. -/
theorem run_evaluate (c : Calculator) (bindings : Bindings) (text : String) :
    (evaluate c bindings text).run = some (c.evaluate bindings text) := by
  have hparse := run_parse c.dialect bindings text
  unfold evaluate Calculator.evaluate Evaluation.of
  show Option.bind (parse c.dialect bindings text).run _ = _
  rw [hparse]
  simp only
  cases Formula.readAndEvaluate c.dialect bindings (normalChars c.dialect text.toList) with
  | error reason => rfl
  | ok result => rfl

/-- A calculator evaluates by positions the conjugate that it evaluates. -/
theorem run_evaluateConjugate (c : Calculator) (bindings : Bindings) (text : String) :
    (evaluateConjugate c bindings text).run = some (c.evaluateConjugate bindings text) := by
  have hparse := run_parse c.dialect bindings text
  unfold evaluateConjugate Calculator.evaluateConjugate Evaluation.of
  show Option.bind (parse c.dialect bindings text).run _ = _
  rw [hparse]
  simp only
  cases Formula.readAndEvaluate c.dialect bindings (normalChars c.dialect text.toList) with
  | error reason => rfl
  | ok result => rfl

/-- What a call by positions commits as a whole is what the assignments of the fields leave. -/
theorem run_commit_fields (c : Calculator) (bindings : Bindings) (normalized : String)
    (result : Evaluated) :
    (Calculator.Fields.commit normalized bindings result.tree result.value).run c.fields
      = .ok result.value (commit c bindings normalized result).fields :=
  Calculator.Fields.run_commit c ⟨normalized, bindings, result.tree, result.value⟩

/-- **No step is undefined.** The normal form, the variables, the literals and the values of
any text under any bindings in any dialect are found by positions: no position is outside its
text, no range is the wrong way round, no text is cut within a character or away from an ASCII
character, what stands before the end of a group is not empty, no count of open parentheses
or levels falls below zero, every loop ends, and no more symbols are open at a time than five
for each position. -/
theorem defined_everywhere (c : Calculator) (bindings : Bindings) (text : String) :
    normalize c.dialect text = some (ComplexFormula.normalize c.dialect text) ∧
      variableNames c.dialect text = some (ComplexFormula.variableNames c.dialect text) ∧
      ofLiteral text = some (Complex.ofLiteral text) ∧
      (evaluate c bindings text).run = some (c.evaluate bindings text) ∧
      (evaluateConjugate c bindings text).run = some (c.evaluateConjugate bindings text) := by
  refine ⟨normalize_eq c.dialect text, variableNames_eq c.dialect text, ofLiteral_eq text,
    ?_, ?_⟩
  · exact run_evaluate c bindings text
  · exact run_evaluateConjugate c bindings text

end ComplexFormula.Positional
