/-
# All readers agree on names

The walk over a text, the walk over its normal form and the evaluator each read identifiers at
positions of their own choosing. The two walks read the same identifiers one after the other,
and the evaluator reads identifiers only where the second walk does: the cursor stands at places
where the lexemes of the normal form go on.

* `Aligned` : the positions at which the lexemes of a text go on;
* `checkedIdentifier` : an identifier that is read only where a list has it, which
  `outcome_checkedIdentifier_eq` spells out;
* `Same` : programs with the same outcome from a kind of positions on;
* `same_checkedSymbol` : the check does not change what a symbol evaluates to;
* `readers_agree` : the readers agree on what the names of a text are.
-/
import ComplexFormula.Proofs.Positional.Limit
import ComplexFormula.Proofs.Respelling

namespace ComplexFormula

/-- The identifier that a lexeme is. -/
def Lexeme.identifier? : Lexeme → Option Identifier
  | call f => some (.call f)
  | name letters => some (.name letters)
  | symbol _ => none

/-- The identifiers of a text are those of its words. -/
theorem filterMap_identifier?_lexemes (dialect : Dialect) (s : List Char) :
    (lexemes dialect s).filterMap Lexeme.identifier?
      = (words dialect s).filterMap Lexeme.identifier? := by
  rw [words, List.filterMap_filter]
  refine List.filterMap_congr fun x _ => ?_
  cases x <;> rfl

namespace Positional

open Reader

/-! ## What the walks read -/

/-- The identifiers that stand among lexemes are the lexemes' own. -/
theorem map_word_occurrences (start : Nat) (xs : List Lexeme) :
    (occurrences start xs).map Occurrence.word = xs.filterMap Lexeme.identifier? := by
  induction xs generalizing start with
  | nil => rfl
  | cons x xs ih =>
    rw [occurrences, List.map_append, ih]
    cases x <;> rfl

/-- Behind some lexemes stand the identifiers of the other ones. -/
theorem occurrences_append (start : Nat) (xs ys : List Lexeme) :
    occurrences start (xs ++ ys)
      = occurrences start xs ++ occurrences (start + (xs.flatMap Lexeme.chars).length) ys := by
  induction xs generalizing start with
  | nil => rfl
  | cons x xs ih =>
    rw [List.cons_append, occurrences, ih, occurrences, List.append_assoc, List.flatMap_cons,
      List.length_append, Nat.add_assoc]

/-- The identifiers that the walk over a text in normal form reads. -/
def scanned (dialect : Dialect) (text : List Char) : List Occurrence :=
  occurrences 0 (lexemes dialect text)

/-- **A text and its normal form have the same identifiers.** -/
theorem map_word_scanned_normalChars (dialect : Dialect) (s : List Char) :
    (scanned dialect (normalChars dialect s)).map Occurrence.word
      = (scanned dialect (withoutBlanks s)).map Occurrence.word := by
  rw [scanned, scanned, map_word_occurrences, map_word_occurrences,
    filterMap_identifier?_lexemes, filterMap_identifier?_lexemes, normalChars_eq,
    words_withMarks]

/-! ## Where the lexemes go on -/

/-- A position at which the lexemes of a text go on. -/
def Aligned (dialect : Dialect) (text : List Char) (position : Nat) : Prop :=
  ∃ s, s <:+ text ∧ place text s = position ∧ lexemes dialect s <:+ lexemes dialect text

section

variable {dialect : Dialect} {text : List Char} {position : Nat}

/-- They begin at the start. -/
theorem aligned_zero (dialect : Dialect) (text : List Char) : Aligned dialect text 0 :=
  ⟨text, List.suffix_rfl, place_self text, List.suffix_rfl⟩

/-- **Behind a character that is no letter the lexemes go on.** -/
theorem aligned_succ {c : Char} (h : text[position]? = some c) (hc : isLetter c = false) :
    Aligned dialect text (position + 1) := by
  obtain ⟨s, ⟨p, rfl⟩, rfl⟩ := exists_place_of_getElem? h
  have hsuffix : c :: s <:+ p ++ c :: s := List.suffix_append p _
  exact ⟨s, (List.suffix_cons c s).trans hsuffix, (place_cons hsuffix).symm,
    lexemes_suffix_of_cut hc p s⟩

/-- They go on behind a numeral. -/
theorem Aligned.behind_numeral {stop : Nat} (h : Aligned dialect text position)
    (hstop : runEnd isNumeralChar text position = some stop) : Aligned dialect text stop := by
  obtain ⟨s, hs, rfl, hlexemes⟩ := h
  rw [runEnd_place _ hs] at hstop
  refine ⟨s.dropWhile isNumeralChar, (List.dropWhile_suffix _).trans hs, Option.some.inj hstop,
    List.IsSuffix.trans ?_ hlexemes⟩
  have hrun := lexemes_suffix_of_symbols dialect (p := s.takeWhile isNumeralChar)
    (fun c hc => isLetter_of_isNumeralChar (List.mem_takeWhile_imp hc))
    (s.dropWhile isNumeralChar)
  rwa [List.takeWhile_append_dropWhile] at hrun

/-- The identifiers of a rest at which the lexemes go on are scanned. -/
theorem occurrences_suffix {s : List Char}
    (hlexemes : lexemes dialect s <:+ lexemes dialect text) :
    occurrences (place text s) (lexemes dialect s) <:+ scanned dialect text := by
  obtain ⟨xs, hxs⟩ := hlexemes
  have hfront : xs.flatMap Lexeme.chars ++ s = text := by
    rw [← flatMap_chars_lexemes dialect text, ← hxs, List.flatMap_append,
      flatMap_chars_lexemes]
  have hplace : place text s = 0 + (xs.flatMap Lexeme.chars).length := by
    rw [← hfront, place_append, Nat.zero_add]
  rw [scanned, ← hxs, occurrences_append, ← hplace]
  exact List.suffix_append _ _

/-- **An identifier that is read where the lexemes go on is scanned**, with its first position
and the one behind it, and behind a name the lexemes go on. -/
theorem Aligned.of_readIdentifier {c : Char} {word : Identifier} {stop : Nat}
    (h : Aligned dialect text position) (hat : text[position]? = some c)
    (hc : isLetter c = true)
    (hread : readIdentifier dialect text position = some (word, stop)) :
    ⟨position, word, stop⟩ ∈ scanned dialect text ∧
      (∀ f, word = .call f → text[stop]? = some '(') ∧
      ∀ letters, word = .name letters → Aligned dialect text stop := by
  obtain ⟨s, hs, rfl, hlexemes⟩ := h
  rw [getElem?_place hs] at hat
  obtain ⟨tail, rfl⟩ := List.head?_eq_some_iff.1 hat
  have hoccurrences := occurrences_suffix hlexemes
  rw [readIdentifier_place hs] at hread
  obtain ⟨after, hafter⟩ : ∃ after, Identifier.read dialect (c :: tail) = (word, after) := by
    rw [← (Prod.mk.inj (Option.some.inj hread)).1]
    exact ⟨_, rfl⟩
  obtain rfl : place text after = stop := by
    rw [hafter] at hread
    exact (Prod.mk.inj (Option.some.inj hread)).2
  have hrest := suffix_of_read hs hafter
  cases word with
  | call f =>
    obtain ⟨inside, rfl⟩ := Identifier.exists_of_read_call hafter
    rw [lexemes_of_call dialect hc hafter,
      occurrences_of_call hs (Identifier.append_of_read_call hafter)] at hoccurrences
    refine ⟨hoccurrences.subset List.mem_cons_self, fun f _ => ?_, nofun⟩
    rw [getElem?_place hrest]
    rfl
  | name letters =>
    rw [lexemes_of_name dialect hc hafter] at hoccurrences hlexemes
    rw [occurrences_of_name hs (Identifier.append_of_read_name hafter)] at hoccurrences
    exact ⟨hoccurrences.subset List.mem_cons_self, nofun, fun _ _ =>
      ⟨after, hrest, rfl, (List.suffix_cons _ _).trans hlexemes⟩⟩

end

/-! ## Identifiers that are checked -/

section

variable (task : Task) (list : List Occurrence)

/-- Evaluates a function call or a name. It is not defined where the identifier is not on the
list, with its first position and the one behind it. -/
def checkedIdentifier (inner : Precedence → Run Evaluated) : Run Evaluated := do
  let start ← here
  let (word, stop) ← defined (readIdentifier task.dialect task.text start)
  defined (guard (⟨start, word, stop⟩ ∈ list))
  identifier task inner

/-- Evaluates a symbol of the notation, and checks the identifiers. -/
def checkedLayer (inner : Precedence → Run Evaluated) : Precedence → Run Evaluated
  | .primary => do
    match ← peek task with
    | none => numeral task
    | some c =>
      if c = rootSign then root task inner
      else if c = '(' then group task inner
      else if isLetter c then checkedIdentifier task list inner
      else numeral task
  | X => layer task inner X

/-- Evaluates a symbol of the notation, and checks the identifiers in it. -/
def checkedSymbol : Nat → Precedence → Run Evaluated
  | 0, _ => defined none
  | steps + 1, X => checkedLayer task list (checkedSymbol steps) X

/-- Evaluates the whole text, and checks the identifiers. -/
def checkedWhole : Run Evaluated := do
  let result ← checkedSymbol task list (5 * task.text.length + 5) .sum
  let position ← here
  if position < task.text.length then
    let rest ← defined (slice? task.text position task.text.length)
    refuse (.unexpectedText position (String.ofList rest))
  else return result

end

section

variable (list : List Occurrence)

/-- Evaluates a text, and checks the identifiers. -/
def checkedParse (dialect : Dialect) (bindings : Bindings) (text : String) :
    ExceptT FormulaError Option (String × Evaluated) := do
  let normalized ← (liftM (normalize dialect text) : ExceptT FormulaError Option String)
  let (result, _) ← (checkedWhole ⟨dialect, bindings, normalized.toList⟩ list).run ⟨0, 0⟩
  return (normalized, result)

/-- The calculator after evaluating a text with its identifiers checked. -/
def checkedEvaluate (c : Calculator) (bindings : Bindings) (text : String) :
    ExceptT FormulaError Option Calculator := do
  let (normalized, result) ← checkedParse list c.dialect bindings text
  return commit c bindings normalized result

/-- The calculator after evaluating the conjugate of a text with its identifiers checked. -/
def checkedEvaluateConjugate (c : Calculator) (bindings : Bindings) (text : String) :
    ExceptT FormulaError Option Calculator := do
  let (normalized, result) ← checkedParse list c.dialect bindings text
  let conjugate ← (liftM (result.unary .conjugate) : ExceptT FormulaError Option Evaluated)
  return commit c bindings normalized conjugate

end

/-! ## Programs that do the same -/

/-- From where the cursor stands two programs have the same outcome, and a value leaves the
cursor at a position of some kind. -/
def SameAt {α : Type} (x y : Run α) (Q : α → Nat → Prop) (cursor : Cursor) : Prop :=
  outcome x cursor = outcome y cursor ∧
    ∀ a cursor', outcome y cursor = some (.ok (a, cursor')) → Q a cursor'.position

/-- They do so from all positions of a kind. -/
def Same {α : Type} (P : Nat → Prop) (x y : Run α) (Q : α → Nat → Prop) : Prop :=
  ∀ cursor : Cursor, P cursor.position → SameAt x y Q cursor

section

variable {α β : Type} {P P' : Nat → Prop} {Q Q' : α → Nat → Prop} {R : β → Nat → Prop}
  {x y : Run α} {cursor : Cursor}

/-- A program with a value does the same as itself. -/
theorem SameAt.of_value {a : α} {cursor' : Cursor}
    (h : outcome x cursor = some (.ok (a, cursor'))) (hQ : Q a cursor'.position) :
    SameAt x x Q cursor := by
  refine ⟨rfl, fun b cursor₂ hvalue => ?_⟩
  obtain ⟨rfl, rfl⟩ := Prod.mk.inj (Except.ok.inj (Option.some.inj (h.symm.trans hvalue)))
  exact hQ

/-- So do programs that stop for the same reason. -/
theorem SameAt.of_error {reason : FormulaError} (hx : outcome x cursor = some (.error reason))
    (hy : outcome y cursor = some (.error reason)) : SameAt x y Q cursor :=
  ⟨hx.trans hy.symm, fun _ _ hvalue => absurd (hy.symm.trans hvalue) nofun⟩

/-- So do programs that have no outcome. -/
theorem SameAt.of_none (hx : outcome x cursor = none) (hy : outcome y cursor = none) :
    SameAt x y Q cursor :=
  ⟨hx.trans hy.symm, fun _ _ hvalue => absurd (hy.symm.trans hvalue) nofun⟩

/-- **Two steps after one another do the same** if both of them do. -/
theorem Same.bind {f g : α → Run β} (hx : Same P x y Q) (hf : ∀ a, Same (Q a) (f a) (g a) R) :
    Same P (x >>= f) (y >>= g) R := by
  intro cursor hcursor
  obtain ⟨hsame, hvalue⟩ := hx cursor hcursor
  cases hy : outcome y cursor with
  | none =>
    exact .of_none (outcome_bind_of_none (hsame.trans hy)) (outcome_bind_of_none hy)
  | some result =>
    rw [hy] at hsame
    cases result with
    | error reason => exact .of_error (outcome_bind_of_error hsame) (outcome_bind_of_error hy)
    | ok result =>
      obtain ⟨a, cursor'⟩ := result
      rw [SameAt, outcome_bind_of_ok hsame, outcome_bind_of_ok hy]
      exact hf a cursor' (hvalue a cursor' hy)

/-- Programs that do the same do so from fewer positions. -/
theorem Same.weaken (h : Same P x y Q) (hP : ∀ position, P' position → P position) :
    Same P' x y Q :=
  fun cursor hcursor => h cursor (hP _ hcursor)

/-- A value leaves the cursor at a position of a wider kind as well. -/
theorem Same.widen (h : Same P x y Q) (hQ : ∀ a position, Q a position → Q' a position) :
    Same P x y Q' :=
  fun cursor hcursor => ⟨(h cursor hcursor).1, fun a cursor' hvalue =>
    hQ _ _ ((h cursor hcursor).2 a cursor' hvalue)⟩

/-! Each step does the same as itself. -/

/-- A syntax error. -/
theorem same_refuse (reason : SyntaxError) : Same P (refuse reason : Run α) (refuse reason) Q :=
  fun _ _ => .of_error rfl rfl

/-- A name without a value. -/
theorem same_unknown (name : String) :
    Same P (throw (.unknownVariable name) : Run α) (throw (.unknownVariable name)) Q :=
  fun _ _ => .of_error rfl rfl

/-- A value. -/
theorem same_pure (a : α) : Same P (pure a : Run α) (pure a) fun _ => P :=
  fun _ hcursor => .of_value rfl hcursor

/-- The position of the cursor. -/
theorem same_here : Same P here here fun start position => P position ∧ position = start :=
  fun _ hcursor => .of_value outcome_here ⟨hcursor, rfl⟩

/-- The character at the cursor. -/
theorem same_peek (task : Task) :
    Same P (peek task) (peek task) fun c position => P position ∧ task.text[position]? = c :=
  fun _ hcursor => .of_value outcome_peek ⟨hcursor, rfl⟩

/-- Moving the cursor. -/
theorem same_moveTo {target : Nat} (P' : Nat → Prop) (h : ∀ position, P position → P' target) :
    Same P (moveTo target) (moveTo target) fun _ => P' :=
  fun _ hcursor => .of_value (outcome_moveTo target) (h _ hcursor)

/-- Moving the cursor on. -/
theorem same_advance (P' : Nat → Prop) (h : ∀ position, P position → P' (position + 1)) :
    Same P advance advance fun _ => P' :=
  fun _ hcursor => .of_value outcome_advance (h _ hcursor)

/-- A step that may not be defined. -/
theorem same_defined (step : Option α) :
    Same P (defined step) (defined step) fun a position => P position ∧ step = some a := by
  intro cursor hcursor
  cases step with
  | none => exact .of_none rfl rfl
  | some a => exact .of_value (outcome_defined a) ⟨hcursor, rfl⟩

/-- An operation that may have no value. -/
theorem same_lift (result : Except FormulaError α) :
    Same P (liftM result : Run α) (liftM result) fun _ => P := by
  intro cursor hcursor
  cases result with
  | error reason => exact .of_error rfl rfl
  | ok a => exact .of_value (outcome_lift (.ok a)) hcursor

/-- Opening a group, a call or a root. -/
theorem same_enter (task : Task) : Same P (enter task) (enter task) fun _ => P := by
  rintro ⟨position, depth⟩ hcursor
  by_cases hlimit : depth + 1 > task.dialect.nestingLimit
  · have henter := (outcome_enter position depth).trans (if_pos hlimit)
    exact .of_error henter henter
  · exact .of_value ((outcome_enter position depth).trans (if_neg hlimit)) hcursor

/-- Closing it. -/
theorem same_leave : Same P leave leave fun _ => P := by
  rintro ⟨position, depth⟩ hcursor
  cases depth with
  | zero => exact .of_none rfl rfl
  | succ depth => exact .of_value (outcome_leave position depth) hcursor

end

/-! ## The evaluator with and without the check -/

/-- At the position of a closing parenthesis that was found there is one. -/
theorem getElem?_of_matchingCloseFrom {text : List Char} {level position close : Nat}
    (h : matchingCloseFrom text level position = some (some close)) :
    text[close]? = some ')' := by
  fun_induction matchingCloseFrom text level position with
  | case1 level position hlt ihopen ihclose ihother =>
    obtain ⟨c, hc, h⟩ := Option.bind_eq_some_iff.1 h
    split at h
    · exact ihopen h
    · split at h
      · next hclose =>
        obtain ⟨level', -, h⟩ := Option.bind_eq_some_iff.1 h
        split at h
        · obtain rfl := Option.some.inj (Option.some.inj h)
          rw [hc, hclose]
        · exact ihclose level' h
      · exact ihother h
  | case2 level position hlt => simp at h

/-- The positions of a task at which the lexemes go on. -/
def Task.Aligned (task : Task) : Nat → Prop := Positional.Aligned task.dialect task.text

section

variable (task : Task)

/-- A numeral ends where the lexemes go on. -/
theorem same_numeral :
    Same task.Aligned (numeral task) (numeral task) fun _ => task.Aligned := by
  refine same_here.bind fun start => (same_defined _).bind fun stop =>
    (same_moveTo task.Aligned ?_).bind fun _ => ?_
  · rintro position ⟨⟨haligned, rfl⟩, hstop⟩
    exact haligned.behind_numeral hstop
  by_cases hempty : stop = start
  · simp only [if_pos hempty]
    exact (same_peek task).bind fun c => same_refuse _
  · simp only [if_neg hempty]
    refine (same_defined _).bind fun run => ?_
    cases Numeral.read? run with
    | none => exact same_refuse _
    | some n => exact (same_pure _).widen fun _ _ h => h.1

variable {task} {inner inner' : Precedence → Run Evaluated}

/-- A chain after its left part. -/
theorem same_chain {x y : Run Evaluated} (X : Precedence)
    (h : Same task.Aligned x y fun _ => task.Aligned) (steps : Nat) (left : Evaluated) :
    Same task.Aligned (chain task X x steps left) (chain task X y steps left)
      fun _ => task.Aligned := by
  induction steps generalizing left with
  | zero => exact (same_defined none).widen fun _ _ h => h.1
  | succ steps ih =>
    refine (same_peek task).bind fun c => ?_
    cases hop : c.bind X.operator? with
    | none => exact (same_pure left).widen fun _ _ h => h.1
    | some op =>
      refine (same_advance task.Aligned fun position hat => ?_).bind fun _ =>
        h.bind fun right => (same_lift _).bind fun e => ih e
      obtain ⟨c, rfl, hop⟩ := Option.bind_eq_some_iff.1 hop
      exact aligned_succ hat.2
        (BinaryOperator.isLetter_of_ofChar? (Precedence.operator?_eq_some_iff.1 hop).1)

/-- The end of a group or a call. -/
theorem same_expectClose (opening : Nat) :
    Same task.Aligned (expectClose task opening) (expectClose task opening)
      fun _ => task.Aligned := by
  refine (same_peek task).bind fun c => ?_
  by_cases hclose : c = some ')'
  · simp only [if_pos hclose]
    exact same_advance task.Aligned fun position hat =>
      aligned_succ (hat.2.trans hclose) (by decide)
  · simp only [if_neg hclose]
    refine (same_defined _).bind fun close => ?_
    cases close with
    | none => exact same_refuse _
    | some close =>
      exact same_here.bind fun _ => (same_defined _).bind fun _ => (same_defined _).bind fun _ =>
        same_refuse _

/-- The symbols in others do the same where the lexemes go on, up to where they go on. -/
def SameInner (task : Task) (inner inner' : Precedence → Run Evaluated) : Prop :=
  ∀ X, Same task.Aligned (inner X) (inner' X) fun _ => task.Aligned

/-- What stands in parentheses. -/
theorem same_enclosed (hinner : SameInner task inner inner') (opening : Nat) :
    Same task.Aligned (enclosed task inner opening) (enclosed task inner' opening)
      fun _ => task.Aligned :=
  (hinner .sum).bind fun _ => (same_expectClose opening).bind fun _ =>
    same_leave.bind fun _ => same_pure _

/-- A root. -/
theorem same_root (hinner : SameInner task inner inner') :
    Same (fun position => task.text[position]? = some rootSign) (root task inner)
      (root task inner') fun _ => task.Aligned :=
  (same_advance task.Aligned fun _ hat => aligned_succ hat isLetter_rootSign).bind fun _ =>
    (same_enter task).bind fun _ => (hinner .signed).bind fun _ =>
      same_leave.bind fun _ => same_lift _

/-- A group. A literal is passed at once, up to its parenthesis. -/
theorem same_group (hinner : SameInner task inner inner') :
    Same (fun position => task.text[position]? = some '(') (group task inner)
      (group task inner') fun _ => task.Aligned := by
  refine same_here.bind fun opening => (same_defined _).bind fun close => ?_
  cases close with
  | none => exact same_refuse _
  | some close =>
    refine (same_enter task).bind fun _ => (same_defined _).bind fun content =>
      (same_defined _).bind fun literal => ?_
    cases literal with
    | ok value =>
      refine (same_moveTo task.Aligned ?_).bind fun _ => same_leave.bind fun _ =>
        same_pure _
      rintro position ⟨⟨⟨-, hclose⟩, -⟩, -⟩
      exact aligned_succ (getElem?_of_matchingCloseFrom hclose) (by decide)
    | error reason =>
      refine (same_moveTo task.Aligned ?_).bind fun _ => same_enclosed hinner opening
      rintro position ⟨⟨⟨⟨hopen, rfl⟩, -⟩, -⟩, -⟩
      exact aligned_succ hopen (by decide)

/-- Where the lexemes go on with a letter. -/
def Task.AtLetter (task : Task) (position : Nat) : Prop :=
  task.Aligned position ∧ ∃ c, task.text[position]? = some c ∧ isLetter c = true

/-- A call or a name. -/
theorem same_identifier (hinner : SameInner task inner inner') :
    Same task.AtLetter (identifier task inner) (identifier task inner')
      fun _ => task.Aligned := by
  refine same_here.bind fun start =>
    (same_defined (readIdentifier task.dialect task.text start)).bind fun result => ?_
  obtain ⟨word, stop⟩ := result
  cases word with
  | name letters =>
    simp only
    cases task.bindings.resolve? (String.ofList letters) with
    | none => exact same_unknown _
    | some value =>
      refine (same_moveTo task.Aligned ?_).bind fun _ => same_pure _
      rintro position ⟨⟨⟨haligned, c, hat, hc⟩, rfl⟩, hread⟩
      exact (haligned.of_readIdentifier hat hc hread).2.2 letters rfl
  | call f =>
    refine (same_moveTo task.Aligned ?_).bind fun _ => (same_enter task).bind fun _ =>
      (same_enclosed hinner stop).bind fun _ => same_lift _
    rintro position ⟨⟨⟨haligned, c, hat, hc⟩, rfl⟩, hread⟩
    exact aligned_succ ((haligned.of_readIdentifier hat hc hread).2.1 f rfl) (by decide)

/-- **What is checked**: an identifier that is on the list is evaluated, and where none is read,
or one that is not on the list, nothing is defined. -/
theorem outcome_checkedIdentifier_eq (list : List Occurrence) (inner : Precedence → Run Evaluated)
    (cursor : Cursor) :
    outcome (checkedIdentifier task list inner) cursor =
      match readIdentifier task.dialect task.text cursor.position with
      | some (word, stop) =>
        if ⟨cursor.position, word, stop⟩ ∈ list then outcome (identifier task inner) cursor
        else none
      | none => none := by
  rw [checkedIdentifier, outcome_bind_of_ok outcome_here]
  cases readIdentifier task.dialect task.text cursor.position with
  | none => exact outcome_bind_of_none rfl
  | some result =>
    obtain ⟨word, stop⟩ := result
    rw [outcome_bind_of_ok (outcome_defined _)]
    by_cases hmem : (⟨cursor.position, word, stop⟩ : Occurrence) ∈ list
    · exact (outcome_bind_of_ok (outcome_guard hmem)).trans (if_pos hmem).symm
    · have hguard : outcome (defined (guard (⟨cursor.position, word, stop⟩ ∈ list))) cursor
          = none := by
        rw [guard, if_neg hmem]
        rfl
      exact (outcome_bind_of_none hguard).trans (if_neg hmem).symm

/-- **The check is passed** wherever an identifier is read. -/
theorem outcome_checkedIdentifier (inner : Precedence → Run Evaluated) {cursor : Cursor}
    (h : task.AtLetter cursor.position) :
    outcome (checkedIdentifier task (scanned task.dialect task.text) inner) cursor
      = outcome (identifier task inner) cursor := by
  obtain ⟨haligned, c, hat, hc⟩ := h
  rw [outcome_checkedIdentifier_eq]
  split
  · next word stop hread => rw [if_pos (haligned.of_readIdentifier hat hc hread).1]
  · next hread => rw [identifier, outcome_bind_of_ok outcome_here, hread, outcome_bind_of_none rfl]

/-- An identifier that is checked, and one that is not. -/
theorem same_checkedIdentifier (hinner : SameInner task inner inner') :
    Same task.AtLetter (checkedIdentifier task (scanned task.dialect task.text) inner)
      (identifier task inner') fun _ => task.Aligned := by
  intro cursor hcursor
  rw [SameAt, outcome_checkedIdentifier inner hcursor]
  exact same_identifier hinner cursor hcursor

/-- A symbol, given the symbols in it. -/
theorem same_checkedLayer (hinner : SameInner task inner inner') :
    SameInner task (checkedLayer task (scanned task.dialect task.text) inner)
      (layer task inner') := by
  have hchain : ∀ Y : Precedence,
      Same task.Aligned
        (inner Y.tighter >>= chain task Y (inner Y.tighter) (task.text.length + 1))
        (inner' Y.tighter >>= chain task Y (inner' Y.tighter) (task.text.length + 1))
        fun _ => task.Aligned :=
    fun Y => (hinner Y.tighter).bind fun left => same_chain Y (hinner Y.tighter) _ left
  intro X
  cases X with
  | sum => exact hchain .sum
  | product => exact hchain .product
  | power => exact hchain .power
  | signed =>
    refine (same_peek task).bind fun c => ?_
    by_cases hsign : c = some '-'
    · simp only [if_pos hsign]
      exact (same_advance task.Aligned fun _ hat =>
        aligned_succ (hat.2.trans hsign) (by decide)).bind fun _ =>
          (hinner .primary).bind fun _ => same_pure _
    · simp only [if_neg hsign]
      exact (hinner .primary).weaken fun _ h => h.1
  | primary =>
    refine (same_peek task).bind fun c => ?_
    cases c with
    | none => exact (same_numeral task).weaken fun _ h => h.1
    | some c =>
      by_cases hroot : c = rootSign
      · simp only [if_pos hroot]
        exact (same_root hinner).weaken fun _ h => hroot ▸ h.2
      · simp only [if_neg hroot]
        by_cases hopen : c = '('
        · simp only [if_pos hopen]
          exact (same_group hinner).weaken fun _ h => hopen ▸ h.2
        · simp only [if_neg hopen]
          by_cases hletter : isLetter c = true
          · simp only [if_pos hletter]
            exact (same_checkedIdentifier hinner).weaken fun _ h => ⟨h.1, c, h.2, hletter⟩
          · simp only [if_neg hletter]
            exact (same_numeral task).weaken fun _ h => h.1

/-- **The check does not change what a symbol evaluates to.** -/
theorem same_checkedSymbol (steps : Nat) :
    SameInner task (checkedSymbol task (scanned task.dialect task.text) steps)
      (symbol task steps) := by
  induction steps with
  | zero => exact fun _ => (same_defined none).widen fun _ _ h => h.1
  | succ steps ih => exact same_checkedLayer ih

variable (task)

/-- Nor what the whole text does. -/
theorem outcome_checkedWhole :
    outcome (checkedWhole task (scanned task.dialect task.text)) ⟨0, 0⟩
      = outcome (whole task) ⟨0, 0⟩ := by
  have hwhole : Same task.Aligned (checkedWhole task (scanned task.dialect task.text))
      (whole task) fun _ _ => True := by
    refine (same_checkedSymbol _ .sum).bind fun result => same_here.bind fun position => ?_
    by_cases hmore : position < task.text.length
    · simp only [if_pos hmore]
      exact (same_defined _).bind fun _ => same_refuse _
    · simp only [if_neg hmore]
      exact (same_pure _).widen fun _ _ _ => trivial
  exact (hwhole ⟨0, 0⟩ (aligned_zero _ _)).1

end

/-! ## Whole texts -/

/-- The identifiers that the walk over a normal form reads. -/
def scannedNormal (dialect : Dialect) (text : String) : List Occurrence :=
  scanned dialect (normalChars dialect text.toList)

/-- A text whose identifiers are checked. -/
theorem run_checkedParse (dialect : Dialect) (bindings : Bindings) (text : String) :
    (checkedParse (scannedNormal dialect text) dialect bindings text).run
      = (parse dialect bindings text).run := by
  have hwhole := outcome_checkedWhole ⟨dialect, bindings, normalChars dialect text.toList⟩
  rw [checkedParse, parse, normalize_eq, ComplexFormula.normalize]
  show Option.bind ((checkedWhole ⟨dialect, bindings,
      (String.ofList (normalChars dialect text.toList)).toList⟩ _).run ⟨0, 0⟩).run _
    = Option.bind ((whole ⟨dialect, bindings,
      (String.ofList (normalChars dialect text.toList)).toList⟩).run ⟨0, 0⟩).run _
  rw [String.toList_ofList]
  exact congrArg (Option.bind · _) hwhole

/-- A calculator evaluates what it evaluates without the check. -/
theorem run_checkedEvaluate (c : Calculator) (bindings : Bindings) (text : String) :
    (checkedEvaluate (scannedNormal c.dialect text) c bindings text).run
      = some (c.evaluate bindings text) := by
  rw [← run_evaluate]
  exact congrArg (Option.bind · _) (run_checkedParse c.dialect bindings text)

/-- So it does with a conjugate. -/
theorem run_checkedEvaluateConjugate (c : Calculator) (bindings : Bindings) (text : String) :
    (checkedEvaluateConjugate (scannedNormal c.dialect text) c bindings text).run
      = some (c.evaluateConjugate bindings text) := by
  rw [← run_evaluateConjugate]
  exact congrArg (Option.bind · _) (run_checkedParse c.dialect bindings text)

/-- What the walk over a text reads. -/
theorem normalizeRecorded_eq (dialect : Dialect) (text : String) :
    normalizeRecorded dialect (withoutBlanks text.toList) 0 none [] []
      = some ((ComplexFormula.normalize dialect text).toList,
          scanned dialect (withoutBlanks text.toList)) := by
  have hwalk := normalizeRecorded_place dialect
    (List.suffix_refl (withoutBlanks text.toList)) none [] []
  rw [place_self, List.nil_append, List.nil_append, spellAfter_none] at hwalk
  rw [hwalk, ComplexFormula.normalize, String.toList_ofList]
  rfl

/-- What the walk over its normal form reads. -/
theorem variableNamesRecorded_eq (dialect : Dialect) (text : String) :
    variableNamesRecorded dialect (ComplexFormula.normalize dialect text).toList 0 [] []
      = some (ComplexFormula.variableNames dialect text, scannedNormal dialect text) := by
  have hwalk := variableNamesRecorded_place dialect
    (List.suffix_refl (normalChars dialect text.toList)) [] []
  have hnames := variableNames_eq dialect text
  rw [place_self] at hwalk
  rw [variableNames, normalize_eq, ComplexFormula.normalize] at hnames
  simp only [Option.bind_eq_bind, Option.bind_some, String.toList_ofList] at hnames
  rw [← map_fst_variableNamesRecorded _ _ _ _ [], hwalk] at hnames
  rw [ComplexFormula.normalize, String.toList_ofList, hwalk, ← Option.some.inj hnames]
  rfl

/-- **All readers agree on what a name is.** The walk over a text and the walk over its normal
form read the same identifiers one after the other; and evaluation has the same outcome if
every identifier that it reads has to be one that the second walk reads at the same position
and up to the same end, while nothing would be defined where it read another one. -/
theorem readers_agree (c : Calculator) (bindings : Bindings) (text : String) :
    ∃ written found,
      normalizeRecorded c.dialect (withoutBlanks text.toList) 0 none [] []
          = some ((ComplexFormula.normalize c.dialect text).toList, written) ∧
        variableNamesRecorded c.dialect (ComplexFormula.normalize c.dialect text).toList 0 [] []
          = some (ComplexFormula.variableNames c.dialect text, found) ∧
        written.map Occurrence.word = found.map Occurrence.word ∧
        (checkedEvaluate found c bindings text).run = some (c.evaluate bindings text) ∧
        (checkedEvaluateConjugate found c bindings text).run
          = some (c.evaluateConjugate bindings text) ∧
        ∀ (inner : Precedence → Run Evaluated) (cursor : Cursor),
          outcome (checkedIdentifier
              ⟨c.dialect, bindings, (ComplexFormula.normalize c.dialect text).toList⟩ found inner)
              cursor =
            match readIdentifier c.dialect (ComplexFormula.normalize c.dialect text).toList
                cursor.position with
            | some (word, stop) =>
              if ⟨cursor.position, word, stop⟩ ∈ found then
                outcome (identifier
                  ⟨c.dialect, bindings, (ComplexFormula.normalize c.dialect text).toList⟩ inner)
                  cursor
              else none
            | none => none := by
  refine ⟨_, _, normalizeRecorded_eq c.dialect text, variableNamesRecorded_eq c.dialect text,
    ?_, ?_, ?_, outcome_checkedIdentifier_eq _⟩
  · exact (map_word_scanned_normalChars c.dialect text.toList).symm
  · exact run_checkedEvaluate c bindings text
  · exact run_checkedEvaluateConjugate c bindings text

end Positional

end ComplexFormula
