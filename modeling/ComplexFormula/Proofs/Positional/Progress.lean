/-
# Progress and balance

Each part of a formula has a program that evaluates it. Where such a program returns a value,
the cursor has gone on by at least one character and is still in the text, what it has passed
closes exactly the parentheses that it opens, and as many groups, calls and roots are open as
before. So the closing parenthesis that the cursor meets behind the content of a group is the
one that a search for it finds, and no program goes on for ever.

* `Returns` : a program with a value, and the equations of its steps;
* `BalancedRange` : what stands between two positions is balanced;
* `Advances` : the cursor has gone on over a balanced range, at the same depth;
* `advances_program` : the program of each part advances wherever it returns;
* `watchedSymbol` : an evaluator that is not defined where a program does not advance;
* `progress_and_balance` : all parts advance, groups end where they should, and any text has an
  outcome under any limit.
-/
import ComplexFormula.Proofs.Positional.Names

namespace ComplexFormula.Positional

open Reader

/-! ## Programs that return -/

/-- From one cursor a program finds a value, and leaves the cursor as the other one. -/
def Returns {α : Type} (x : Run α) (start : Cursor) (a : α) (stop : Cursor) : Prop :=
  outcome x start = some (.ok (a, stop))

section

variable {α β : Type} {start stop : Cursor} {task : Task} {a b : α} {f : α → Run β} {y : β}

/-- **A step and what follows it return** where both of them do, one after the other. -/
theorem returns_bind_iff {x : Run α} :
    Returns (x >>= f) start y stop ↔
      ∃ a middle, Returns x start a middle ∧ Returns (f a) middle y stop := by
  unfold Returns
  cases hx : outcome x start with
  | none => simp [outcome_bind_of_none hx]
  | some result =>
    cases result with
    | error reason => simp [outcome_bind_of_error hx]
    | ok result =>
      obtain ⟨a, middle⟩ := result
      rw [outcome_bind_of_ok hx]
      simp

/-! What follows a step. -/

/-- Behind the position of the cursor. -/
theorem returns_here_bind {f : Nat → Run β} :
    Returns (here >>= f) start y stop ↔ Returns (f start.position) start y stop := by
  rw [Returns, outcome_bind_of_ok outcome_here, Returns]

/-- Behind the character at the cursor. -/
theorem returns_peek_bind {f : Option Char → Run β} :
    Returns (peek task >>= f) start y stop ↔
      Returns (f task.text[start.position]?) start y stop := by
  rw [Returns, outcome_bind_of_ok outcome_peek, Returns]

/-- After moving the cursor. -/
theorem returns_moveTo_bind {position : Nat} {f : Unit → Run β} :
    Returns (moveTo position >>= f) start y stop ↔
      Returns (f ()) ⟨position, start.depth⟩ y stop := by
  rw [Returns, outcome_bind_of_ok (outcome_moveTo position), Returns]

/-- After moving the cursor on. -/
theorem returns_advance_bind {f : Unit → Run β} :
    Returns (advance >>= f) start y stop ↔
      Returns (f ()) ⟨start.position + 1, start.depth⟩ y stop := by
  rw [Returns, outcome_bind_of_ok outcome_advance, Returns]

/-- After a step that has to be defined. -/
theorem returns_defined_bind {step : Option α} :
    Returns (defined step >>= f) start y stop ↔ ∃ a, step = some a ∧ Returns (f a) start y stop := by
  cases step with
  | none =>
    rw [Returns, outcome_bind_of_none rfl]
    simp
  | some a =>
    rw [Returns, outcome_bind_of_ok (outcome_defined a)]
    simp [Returns]

/-- After opening a group, a call or a root. -/
theorem returns_enter_bind {f : Unit → Run β} :
    Returns (enter task >>= f) start y stop ↔
      start.depth < task.dialect.nestingLimit ∧
        Returns (f ()) ⟨start.position, start.depth + 1⟩ y stop := by
  obtain ⟨position, depth⟩ := start
  have henter : outcome (enter task) ⟨position, depth⟩ = _ := outcome_enter position depth
  by_cases hlimit : depth + 1 > task.dialect.nestingLimit
  · rw [if_pos hlimit] at henter
    rw [Returns, outcome_bind_of_error henter]
    exact ⟨nofun, fun h => absurd h.1 (Nat.not_lt.2 (Nat.le_of_lt_succ hlimit))⟩
  · rw [if_neg hlimit] at henter
    rw [Returns, outcome_bind_of_ok henter]
    exact ⟨fun h => ⟨Nat.lt_of_succ_le (Nat.not_lt.1 hlimit), h⟩, fun h => h.2⟩

/-- After closing it. -/
theorem returns_leave_bind {f : Unit → Run β} :
    Returns (leave >>= f) start y stop ↔
      ∃ depth, start.depth = depth + 1 ∧ Returns (f ()) ⟨start.position, depth⟩ y stop := by
  obtain ⟨position, depth⟩ := start
  cases depth with
  | zero =>
    rw [Returns, outcome_bind_of_none rfl]
    simp
  | succ depth =>
    rw [Returns, outcome_bind_of_ok (outcome_leave position depth)]
    simp [Returns]

/-! Last steps. -/

/-- A value. -/
theorem returns_pure_iff : Returns (pure a) start b stop ↔ b = a ∧ stop = start := by
  show some (Except.ok (a, start)) = _ ↔ _
  simp [eq_comm]

/-- An operation that may have no value. -/
theorem returns_lift_iff {result : Except FormulaError α} :
    Returns (liftM result : Run α) start a stop ↔ result = .ok a ∧ stop = start := by
  rw [Returns, outcome_lift]
  cases result <;> simp [Except.map, eq_comm]

/-- Moving the cursor on. -/
theorem returns_advance_iff {u : Unit} :
    Returns advance start u stop ↔ stop = ⟨start.position + 1, start.depth⟩ := by
  rw [Returns, outcome_advance]
  simp [eq_comm]

/-- A reason to stop is no value. -/
theorem not_returns_throw {reason : FormulaError} :
    ¬ Returns (throw reason : Run α) start a stop :=
  nofun

/-- Nor is a syntax error. -/
theorem not_returns_refuse {reason : SyntaxError} :
    ¬ Returns (refuse reason : Run α) start a stop :=
  nofun

end

/-! ## Balanced ranges -/

/-- What stands between two positions is balanced. -/
def BalancedRange (text : List Char) (start stop : Nat) : Prop :=
  ∃ part, slice? text start stop = some part ∧ Balanced part

namespace BalancedRange

variable {text : List Char} {p q r : Nat}

/-- The ends of the range are in order. -/
theorem le (h : BalancedRange text p q) : p ≤ q := by
  obtain ⟨part, hpart, -⟩ := h
  exact (le_of_slice? hpart).1

/-- The range is inside the text. -/
theorem le_length (h : BalancedRange text p q) : q ≤ text.length := by
  obtain ⟨part, hpart, -⟩ := h
  exact (le_of_slice? hpart).2

/-- The balanced front of a rest of the text. -/
theorem of_place {part s rest : List Char} (h : s <:+ text) (hs : part ++ rest = s)
    (hpart : Balanced part) : BalancedRange text (place text s) (place text rest) :=
  ⟨part, slice?_place h hs, hpart⟩

/-- A character that is no parenthesis. -/
theorem of_char {c : Char} (h : text[p]? = some c) (hopen : c ≠ '(') (hclose : c ≠ ')') :
    BalancedRange text p (p + 1) := by
  obtain ⟨s, hs, rfl⟩ := exists_place_of_getElem? h
  have hc : Balanced [c] := (Balanced.of_not_mem (by simp) (by simp)).cons hopen hclose
  rw [place_cons hs]
  exact of_place hs rfl hc

/-- Two ranges in a row. -/
theorem trans (h : BalancedRange text p q) (h' : BalancedRange text q r) :
    BalancedRange text p r := by
  obtain ⟨part, hpart, hbalanced⟩ := h
  obtain ⟨part', hpart', hbalanced'⟩ := h'
  exact ⟨part ++ part', slice?_trans hpart hpart', hbalanced.append hbalanced'⟩

/-- A range with a parenthesis before it and one behind it. -/
theorem enclose (hopen : text[p]? = some '(') (h : BalancedRange text (p + 1) q)
    (hclose : text[q]? = some ')') : BalancedRange text p (q + 1) := by
  obtain ⟨part, hpart, hbalanced⟩ := h
  refine ⟨'(' :: part ++ [')'], ?_, hbalanced.enclose⟩
  exact slice?_trans (slice?_trans (slice?_of_getElem? hopen) hpart) (slice?_of_getElem? hclose)

end BalancedRange

/-! ## Progress -/

/-- The cursor has gone on over a balanced range, and as much is open as before. -/
structure Advances (text : List Char) (start stop : Cursor) : Prop where
  forward : start.position < stop.position
  inside : stop.position ≤ text.length
  balanced : BalancedRange text start.position stop.position
  depth_eq : stop.depth = start.depth

namespace Advances

variable {text : List Char} {start middle stop : Cursor}

/-- A balanced range that is not empty. -/
theorem of_range {p q depth : Nat} (hlt : p < q) (h : BalancedRange text p q) :
    Advances text ⟨p, depth⟩ ⟨q, depth⟩ where
  forward := hlt
  inside := h.le_length
  balanced := h
  depth_eq := rfl

/-- The cursor goes on twice. -/
theorem trans (h : Advances text start middle) (h' : Advances text middle stop) :
    Advances text start stop where
  forward := h.forward.trans h'.forward
  inside := h'.inside
  balanced := h.balanced.trans h'.balanced
  depth_eq := h'.depth_eq.trans h.depth_eq

/-- The cursor goes on behind a character that is no parenthesis. -/
theorem of_char {c : Char} (hc : text[start.position]? = some c) (hopen : c ≠ '(')
    (hclose : c ≠ ')') (h : Advances text ⟨start.position + 1, start.depth⟩ stop) :
    Advances text start stop where
  forward := (Nat.lt_succ_self _).trans h.forward
  inside := h.inside
  balanced := (BalancedRange.of_char hc hopen hclose).trans h.balanced
  depth_eq := h.depth_eq

end Advances

/-- A program advances wherever it returns. -/
def Advancing (text : List Char) (x : Run Evaluated) : Prop :=
  ∀ ⦃start result stop⦄, Returns x start result stop → Advances text start stop

/-! ## Numerals and the ends of groups -/

section

variable {task : Task} {start stop : Cursor}

/-- A numeral that is evaluated has digits and points only, and at least one of them. -/
theorem advancing_numeral (task : Task) : Advancing task.text (numeral task) := by
  intro start result stop h
  rw [numeral, returns_here_bind, returns_defined_bind] at h
  obtain ⟨position, hend, h⟩ := h
  rw [returns_moveTo_bind] at h
  by_cases hempty : position = start.position
  · rw [if_pos hempty, returns_peek_bind] at h
    exact absurd h not_returns_refuse
  · rw [if_neg hempty, returns_defined_bind] at h
    obtain ⟨run, hrun, h⟩ := h
    have hends := le_of_slice? hrun
    -- the run is the longest one that begins where the cursor stood
    obtain ⟨s, hs, hplace⟩ := exists_place_of_le (hends.1.trans hends.2)
    rw [← hplace, runEnd_place _ hs] at hend
    obtain rfl := Option.some.inj hend
    have hbalanced : Balanced (s.takeWhile isNumeralChar) :=
      Balanced.of_isNumeralChar fun c hc => List.mem_takeWhile_imp hc
    have hrange := BalancedRange.of_place hs List.takeWhile_append_dropWhile hbalanced
    split at h
    · exact absurd h not_returns_refuse
    · obtain ⟨-, rfl⟩ := returns_pure_iff.1 h
      rw [hplace] at hrange
      exact .of_range (Nat.lt_of_le_of_ne hends.1 (Ne.symm hempty)) hrange

/-- The closing parenthesis of a group stands behind a balanced content. -/
theorem matchingClose_eq_some_iff {text : List Char} {opening close : Nat}
    (hopen : text[opening]? = some '(') :
    matchingClose text opening = some (some close) ↔
      BalancedRange text (opening + 1) close ∧ text[close]? = some ')' := by
  obtain ⟨inside, hs, rfl⟩ := exists_place_of_getElem? hopen
  have hinside : inside <:+ text := (List.suffix_cons _ inside).trans hs
  rw [matchingClose_place hs, place_cons hs, Option.some_inj, Option.map_eq_some_iff]
  constructor
  · rintro ⟨index, hindex, rfl⟩
    obtain ⟨content, rest, rfl, hcontent, rfl⟩ := closingIndex?_eq_some_iff.1 hindex
    have hrest : ')' :: rest <:+ text := (List.suffix_append content _).trans hinside
    rw [place_append_add hinside, getElem?_place hrest]
    exact ⟨.of_place hinside rfl hcontent, rfl⟩
  · rintro ⟨hrange, hclose⟩
    obtain ⟨rest, hrest, rfl⟩ := exists_place_of_getElem? hclose
    obtain ⟨content, hcontent, hbalanced⟩ := hrange
    obtain ⟨q, rfl⟩ := suffix_of_place_le hinside hrest (le_of_slice? hcontent).1
    rw [slice?_place hinside rfl] at hcontent
    obtain rfl := Option.some.inj hcontent
    exact ⟨q.length, closingIndex?_eq_some_iff.2 ⟨q, rest, rfl, hbalanced, rfl⟩,
      place_append_add hinside⟩

/-- The end of a group is taken at a closing parenthesis. -/
theorem returns_expectClose_iff {opening : Nat} {u : Unit} :
    Returns (expectClose task opening) start u stop ↔
      task.text[start.position]? = some ')' ∧ stop = ⟨start.position + 1, start.depth⟩ := by
  rw [expectClose, returns_peek_bind]
  by_cases hclose : task.text[start.position]? = some ')'
  · rw [if_pos hclose, returns_advance_iff]
    exact ⟨fun h => ⟨hclose, h⟩, fun h => h.2⟩
  · rw [if_neg hclose, returns_defined_bind]
    refine ⟨?_, fun h => absurd h.1 hclose⟩
    rintro ⟨close, -, h⟩
    cases close with
    | none => exact absurd h not_returns_refuse
    | some close =>
      rw [returns_here_bind, returns_defined_bind] at h
      obtain ⟨-, -, h⟩ := h
      rw [returns_defined_bind] at h
      obtain ⟨rest, -, h⟩ := h
      exact absurd h not_returns_refuse

end

/-! ## Symbols -/

section

variable {task : Task} {inner : Precedence → Run Evaluated} {start stop : Cursor}
  {result : Evaluated}

/-- What stands in parentheses, with them. -/
theorem advances_enclosed (hinner : ∀ X, Advancing task.text (inner X)) {opening depth : Nat}
    (hopen : task.text[opening]? = some '(')
    (h : Returns (enclosed task inner opening) ⟨opening + 1, depth + 1⟩ result stop) :
    Advances task.text ⟨opening, depth⟩ stop := by
  rw [enclosed, returns_bind_iff] at h
  obtain ⟨content, middle, hcontent, h⟩ := h
  have hmiddle := hinner .sum hcontent
  obtain ⟨u, behind, hend, h⟩ := returns_bind_iff.1 h
  obtain ⟨hclose, rfl⟩ := returns_expectClose_iff.1 hend
  rw [returns_leave_bind] at h
  obtain ⟨depth', hdepth, h⟩ := h
  obtain ⟨-, rfl⟩ := returns_pure_iff.1 h
  obtain rfl : depth' = depth := Nat.succ.inj (hdepth.symm.trans hmiddle.depth_eq)
  refine .of_range ?_ (hmiddle.balanced.enclose hopen hclose)
  exact Nat.lt_succ_of_lt ((Nat.lt_succ_self opening).trans hmiddle.forward)

/-- A root. -/
theorem advances_root (hinner : ∀ X, Advancing task.text (inner X))
    (hroot : task.text[start.position]? = some rootSign)
    (h : Returns (root task inner) start result stop) : Advances task.text start stop := by
  rw [root, returns_advance_bind, returns_enter_bind] at h
  obtain ⟨operand, middle, hoperand, h⟩ := returns_bind_iff.1 h.2
  have hmiddle := hinner .signed hoperand
  rw [returns_leave_bind] at h
  obtain ⟨depth, hdepth, h⟩ := h
  obtain ⟨-, rfl⟩ := returns_lift_iff.1 h
  obtain rfl : depth = start.depth := Nat.succ.inj (hdepth.symm.trans hmiddle.depth_eq)
  exact .of_char hroot (by decide) (by decide) (.of_range hmiddle.forward hmiddle.balanced)

/-- A group: a literal is passed at once, up to its parenthesis. -/
theorem advances_group (hinner : ∀ X, Advancing task.text (inner X))
    (hopen : task.text[start.position]? = some '(')
    (h : Returns (group task inner) start result stop) : Advances task.text start stop := by
  rw [group, returns_here_bind, returns_defined_bind] at h
  obtain ⟨close?, hclose, h⟩ := h
  cases close? with
  | none => exact absurd h not_returns_refuse
  | some close =>
    rw [returns_enter_bind, returns_defined_bind] at h
    obtain ⟨-, content, -, h⟩ := h
    rw [returns_defined_bind] at h
    obtain ⟨literal, -, h⟩ := h
    cases literal with
    | ok value =>
      rw [returns_moveTo_bind, returns_leave_bind] at h
      obtain ⟨depth, hdepth, h⟩ := h
      obtain ⟨-, rfl⟩ := returns_pure_iff.1 h
      obtain rfl : depth = start.depth := Nat.succ.inj hdepth.symm
      obtain ⟨hcontent, hend⟩ := (matchingClose_eq_some_iff hopen).1 hclose
      exact .of_range (Nat.lt_succ_of_lt hcontent.le) (hcontent.enclose hopen hend)
    | error reason =>
      rw [returns_moveTo_bind] at h
      exact advances_enclosed hinner hopen h

/-- A call or a name. -/
theorem advances_identifier (hinner : ∀ X, Advancing task.text (inner X)) {c : Char}
    (hat : task.text[start.position]? = some c) (hc : isLetter c = true)
    (h : Returns (identifier task inner) start result stop) : Advances task.text start stop := by
  obtain ⟨position, depth⟩ := start
  obtain ⟨s, hs, rfl⟩ := exists_place_of_getElem? hat
  rw [identifier, returns_here_bind, readIdentifier_place hs, returns_defined_bind] at h
  obtain ⟨_, hread, h⟩ := h
  obtain rfl := Option.some.inj hread
  cases hword : Identifier.read task.dialect (c :: s) with
  | mk word rest =>
    have hrest := suffix_of_read hs hword
    rw [hword] at h
    cases word with
    | name letters =>
      have hletters := (Identifier.isLetter_of_read_name hc hword).2
      have hrange := BalancedRange.of_place hs (Identifier.append_of_read_name hword)
        (.of_isLetter hletters)
      simp only at h
      split at h
      · exact absurd h not_returns_throw
      · rw [returns_moveTo_bind] at h
        obtain ⟨-, rfl⟩ := returns_pure_iff.1 h
        exact .of_range (place_lt_of_read hs hc hword) hrange
    | call f =>
      obtain ⟨inside, rfl⟩ := Identifier.exists_of_read_call hword
      have hrange := BalancedRange.of_place hs (Identifier.append_of_read_call hword)
        (.of_isLetter RealFunction.isLetter_of_mem_name)
      simp only at h
      rw [returns_moveTo_bind, returns_enter_bind] at h
      obtain ⟨argument, middle, hargument, h⟩ := returns_bind_iff.1 h.2
      obtain ⟨-, rfl⟩ := returns_lift_iff.1 h
      have henclosed := advances_enclosed hinner (getElem?_place hrest) hargument
      exact .trans (.of_range (place_lt_of_read hs hc hword) hrange) henclosed

/-- A chain after its left part. -/
theorem advances_chain {X : Precedence} {operand : Run Evaluated}
    (hoperand : Advancing task.text operand) {steps : Nat} {left : Evaluated} {middle : Cursor}
    (hleft : Advances task.text start middle)
    (h : Returns (chain task X operand steps left) middle result stop) :
    Advances task.text start stop := by
  -- with each operand the left part goes on
  induction steps generalizing left middle with
  | zero => exact absurd h nofun
  | succ steps ih =>
    rw [chain, returns_peek_bind] at h
    cases hop : task.text[middle.position]?.bind X.operator? with
    | none =>
      rw [hop] at h
      obtain ⟨-, rfl⟩ := returns_pure_iff.1 h
      exact hleft
    | some op =>
      rw [hop] at h
      simp only at h
      obtain ⟨c, hc, hop⟩ := Option.bind_eq_some_iff.1 hop
      have hchar := (Precedence.operator?_eq_some_iff.1 hop).1
      rw [returns_advance_bind] at h
      obtain ⟨right, behind, hright, happly⟩ := returns_bind_iff.1 h
      obtain ⟨e, _, hlift, hnext⟩ := returns_bind_iff.1 happly
      obtain ⟨-, rfl⟩ := returns_lift_iff.1 hlift
      refine ih (hleft.trans (.of_char hc ?_ ?_ (hoperand hright))) hnext
      · exact BinaryOperator.ne_open_of_ofChar? hchar
      · exact BinaryOperator.ne_close_of_ofChar? hchar

/-- A primary, or a sign and a primary. -/
theorem advancing_signed (hinner : ∀ X, Advancing task.text (inner X)) :
    Advancing task.text (layer task inner .signed) := by
  intro start result stop h
  rw [layer, returns_peek_bind] at h
  by_cases hsign : task.text[start.position]? = some '-'
  · rw [if_pos hsign, returns_advance_bind] at h
    obtain ⟨operand, middle, hoperand, h⟩ := returns_bind_iff.1 h
    obtain ⟨-, rfl⟩ := returns_pure_iff.1 h
    exact .of_char hsign (by decide) (by decide) (hinner .primary hoperand)
  · rw [if_neg hsign] at h
    exact hinner .primary h

/-- A primary: its first character settles what it is. -/
theorem advancing_primary (hinner : ∀ X, Advancing task.text (inner X)) :
    Advancing task.text (layer task inner .primary) := by
  intro start result stop h
  rw [layer, returns_peek_bind] at h
  cases hat : task.text[start.position]? with
  | none =>
    rw [hat] at h
    exact advancing_numeral task h
  | some c =>
    rw [hat] at h
    simp only at h
    split at h
    · next hroot =>
      rw [hroot] at hat
      exact advances_root hinner hat h
    · split at h
      · next hopen =>
        rw [hopen] at hat
        exact advances_group hinner hat h
      · split at h
        · next hletter => exact advances_identifier hinner hat hletter h
        · exact advancing_numeral task h

/-- **A symbol advances** if the symbols in it do. -/
theorem advancing_layer (hinner : ∀ X, Advancing task.text (inner X)) (X : Precedence) :
    Advancing task.text (layer task inner X) := by
  have hchain : ∀ Y : Precedence, Advancing task.text
      (inner Y.tighter >>= chain task Y (inner Y.tighter) (task.text.length + 1)) := by
    intro Y start result stop h
    obtain ⟨left, middle, hleft, hmore⟩ := returns_bind_iff.1 h
    exact advances_chain (hinner Y.tighter) (hinner Y.tighter hleft) hmore
  cases X with
  | sum => exact hchain .sum
  | product => exact hchain .product
  | power => exact hchain .power
  | signed => exact advancing_signed hinner
  | primary => exact advancing_primary hinner

/-- **Every symbol advances**, however deeply symbols may be nested. -/
theorem advancing_symbol (task : Task) (steps : Nat) (X : Precedence) :
    Advancing task.text (symbol task steps X) := by
  induction steps generalizing X with
  | zero => exact fun _ _ _ h => absurd h nofun
  | succ steps ih => exact advancing_layer ih X

end

/-! ## The parts of a formula -/

/-- The parts of a formula that are evaluated by a program of their own: the symbols of the
notation, and the primaries that are no roots. -/
inductive Part where
  | symbol (X : Precedence)
  | group
  | identifier
  | numeral

namespace Part

/-- The program of a part, given those of the symbols in it. -/
def program (task : Task) (inner : Precedence → Run Evaluated) : Part → Run Evaluated
  | symbol X => layer task inner X
  | group => Positional.group task inner
  | identifier => Positional.identifier task inner
  | numeral => Positional.numeral task

/-- Whether the program of a part is for what stands at the cursor. A group begins with its
parenthesis and an identifier with a letter. -/
def beginsWith : Part → Option Char → Bool
  | group, c => c == some '('
  | identifier, c => c.any isLetter
  | _, _ => true

end Part

section

variable {task : Task} {inner : Precedence → Run Evaluated} {part : Part} {start stop : Cursor}
  {result : Evaluated}

/-- **The program of every part advances** wherever it returns. -/
theorem advances_program (hinner : ∀ X, Advancing task.text (inner X))
    (hbegins : part.beginsWith task.text[start.position]? = true)
    (h : Returns (part.program task inner) start result stop) : Advances task.text start stop := by
  cases part with
  | symbol X => exact advancing_layer hinner X h
  | group => exact advances_group hinner (eq_of_beq hbegins) h
  | identifier =>
    obtain ⟨c, hat, hc⟩ := (Option.any_eq_true _ _).1 hbegins
    exact advances_identifier hinner hat hc h
  | numeral => exact advancing_numeral task h

/-- **A closing parenthesis behind the content of a group** is the one that closes the group. -/
theorem returns_expectClose_iff_matchingClose {opening depth : Nat}
    (hopen : task.text[opening]? = some '(')
    (hcontent : Advances task.text ⟨opening + 1, depth⟩ stop) :
    Returns (expectClose task opening) stop () ⟨stop.position + 1, stop.depth⟩ ↔
      matchingClose task.text opening = some (some stop.position) := by
  rw [returns_expectClose_iff, matchingClose_eq_some_iff hopen]
  constructor
  · rintro ⟨hclose, -⟩
    exact ⟨hcontent.balanced, hclose⟩
  · rintro ⟨-, hclose⟩
    exact ⟨hclose, rfl⟩

end

/-! ## Programs that are watched -/

deriving instance DecidableEq for Evaluated

/-- Whether a program returns a value can be found out by running it. -/
instance {α : Type} [DecidableEq α] (x : Run α) (start : Cursor) (a : α) (stop : Cursor) :
    Decidable (Returns x start a stop) :=
  inferInstanceAs (Decidable (_ = _))

/-- Whether what stands between two positions is balanced can be decided. -/
instance (text : List Char) (p q : Nat) : Decidable (BalancedRange text p q) :=
  match h : slice? text p q with
  | none => isFalse fun ⟨_, hpart, _⟩ => absurd (h.symm.trans hpart) nofun
  | some part => decidable_of_iff (Balanced part)
      ⟨fun hpart => ⟨part, h, hpart⟩, fun ⟨_, hother, hbalanced⟩ =>
        Option.some.inj (h.symm.trans hother) ▸ hbalanced⟩

/-- Whether the cursor has gone on can be decided. -/
instance (text : List Char) (start stop : Cursor) : Decidable (Advances text start stop) :=
  decidable_of_iff (start.position < stop.position ∧ stop.position ≤ text.length ∧
      BalancedRange text start.position stop.position ∧ stop.depth = start.depth)
    ⟨fun h => ⟨h.1, h.2.1, h.2.2.1, h.2.2.2⟩,
      fun h => ⟨h.forward, h.inside, h.balanced, h.depth_eq⟩⟩

section

variable (task : Task)

/-- Runs the program of a part. It is not defined where the program is not for what stands at
the cursor, and where it returns a value and the cursor has not gone on. -/
def watched (part : Part) (program : Run Evaluated) : Run Evaluated := do
  let start ← get
  defined (guard (part.beginsWith task.text[start.position]? = true))
  let result ← program
  let stop ← get
  defined (guard (Advances task.text start stop))
  return result

/-- Evaluates a symbol of the notation, and watches the other parts in it. -/
def watchedLayer (inner : Precedence → Run Evaluated) : Precedence → Run Evaluated
  | .primary => do
    match ← peek task with
    | none => watched task .numeral (numeral task)
    | some c =>
      if c = rootSign then root task inner
      else if c = '(' then watched task .group (group task inner)
      else if isLetter c then watched task .identifier (identifier task inner)
      else watched task .numeral (numeral task)
  | X => layer task inner X

/-- Evaluates a symbol of the notation, and watches it and all parts in it. -/
def watchedSymbol : Nat → Precedence → Run Evaluated
  | 0, _ => defined none
  | steps + 1, X => watched task (.symbol X) (watchedLayer task (watchedSymbol steps) X)

/-- Evaluates the whole text, and watches all parts of it. -/
def watchedWhole : Run Evaluated := do
  let result ← watchedSymbol task (5 * task.text.length + 5) .sum
  let position ← here
  if position < task.text.length then
    let rest ← defined (slice? task.text position task.text.length)
    refuse (.unexpectedText position (String.ofList rest))
  else return result

variable {task} {inner : Precedence → Run Evaluated} {part : Part} {start : Cursor}

/-- A program that advances does the same if it is watched. -/
theorem outcome_watched {x : Run Evaluated}
    (hbegins : part.beginsWith task.text[start.position]? = true)
    (h : ∀ ⦃result stop⦄, Returns x start result stop → Advances task.text start stop) :
    outcome (watched task part x) start = outcome x start := by
  have hget : ∀ cursor, outcome (get : Run Cursor) cursor = some (.ok (cursor, cursor)) :=
    fun _ => rfl
  rw [watched, outcome_bind_of_ok (hget start), outcome_bind_of_ok (outcome_guard hbegins)]
  cases hx : outcome x start with
  | none => exact outcome_bind_of_none hx
  | some answer =>
    cases answer with
    | error reason => exact outcome_bind_of_error hx
    | ok answer =>
      obtain ⟨result, stop⟩ := answer
      rw [outcome_bind_of_ok hx, outcome_bind_of_ok (hget stop),
        outcome_bind_of_ok (outcome_guard (h hx))]
      rfl

-- A program that returns a value where it stands does not pass.
example (e : Evaluated) : outcome (watched ⟨{}, .empty, ['1']⟩ .numeral (pure e)) ⟨0, 0⟩ = none :=
  rfl

/-- The parts in a symbol do the same if they are watched. -/
theorem watchedLayer_eq (hinner : ∀ X, Advancing task.text (inner X)) :
    watchedLayer task inner = layer task inner := by
  funext X
  cases X with
  | sum | product | power | signed => rfl
  | primary =>
    refine funext fun start => ?_
    show outcome (watchedLayer task inner .primary) start = outcome (layer task inner .primary) start
    rw [watchedLayer, layer, outcome_bind_of_ok outcome_peek, outcome_bind_of_ok outcome_peek]
    cases hat : task.text[start.position]? with
    | none => exact outcome_watched rfl fun _ _ h => advancing_numeral task h
    | some c =>
      simp only
      by_cases hroot : c = rootSign
      · rw [if_pos hroot, if_pos hroot]
      · rw [if_neg hroot, if_neg hroot]
        by_cases hopen : c = '('
        · rw [if_pos hopen, if_pos hopen]
          subst hopen
          refine outcome_watched ?_ fun _ _ => advances_group hinner hat
          rw [hat]
          rfl
        · rw [if_neg hopen, if_neg hopen]
          by_cases hletter : isLetter c = true
          · rw [if_pos hletter, if_pos hletter]
            refine outcome_watched ?_ fun _ _ => advances_identifier hinner hat hletter
            rw [hat]
            exact hletter
          · rw [if_neg hletter, if_neg hletter]
            exact outcome_watched rfl fun _ _ h => advancing_numeral task h

variable (task)

/-- **Every program passes the watch**, wherever it is run. -/
theorem watchedSymbol_eq (steps : Nat) : watchedSymbol task steps = symbol task steps := by
  induction steps with
  | zero => rfl
  | succ steps ih =>
    have hinner := advancing_symbol task steps
    refine funext fun X => funext fun start => ?_
    rw [watchedSymbol, ih, watchedLayer_eq hinner]
    exact outcome_watched rfl fun _ _ h => advancing_layer hinner X h

/-- The whole text is evaluated to what its formula is worth, and every part of it passes the
watch. -/
theorem outcome_watchedWhole :
    outcome (watchedWhole task) ⟨0, 0⟩
      = some ((Formula.readAndEvaluate task.dialect task.bindings task.text).map
          fun result => (⟨result.1.tree, result.2⟩, ⟨task.text.length, 0⟩)) := by
  rw [watchedWhole, watchedSymbol_eq]
  exact outcome_whole task

end

/-! ## Termination -/

/-- **Every symbol has an outcome**, from any position on and under any limit, and no more than
five symbols are nested in one another for each position that is left. -/
theorem exists_outcome_symbol (task : Task) (X : Precedence) {start : Cursor}
    (hposition : start.position ≤ task.text.length)
    (hdepth : start.depth ≤ task.dialect.nestingLimit) :
    ∃ answer, ∀ steps, 5 * (task.text.length - start.position) + 5 ≤ steps →
      outcome (symbol task steps X) start = some answer := by
  obtain ⟨position, depth⟩ := start
  obtain ⟨s, hs, rfl⟩ := exists_place_of_le hposition
  have hlength : task.text.length - place task.text s = s.length :=
    Nat.sub_sub_self hs.length_le
  refine ⟨_, fun steps hsteps => agrees_symbol hs ?_ (task.dialect.nestingLimit - depth) depth ?_⟩
  · rw [hlength] at hsteps
    omega
  · exact Nat.add_sub_of_le hdepth

/-- **Progress and balance.** In any text, under any bindings and in any dialect:

* where the program of a part returns a value, the cursor has gone on and is still in the text,
  what it has passed has balanced parentheses, and as much is open as before;
* behind the content of a group or a call, the closing parenthesis that is taken is the one that
  a search for the end of that group finds;
* from any position on a symbol has an outcome, for which no more symbols are nested in one
  another than five for each position that is left, however high the limit of nesting is;
* the whole text has the outcome of its formula even if every part of it has to advance. -/
theorem progress_and_balance (task : Task) :
    (∀ steps (part : Part) start result stop,
      part.beginsWith task.text[start.position]? = true →
      Returns (part.program task (symbol task steps)) start result stop →
      Advances task.text start stop) ∧
    (∀ steps opening depth content stop, task.text[opening]? = some '(' →
      Returns (symbol task steps .sum) ⟨opening + 1, depth⟩ content stop →
      (Returns (expectClose task opening) stop () ⟨stop.position + 1, stop.depth⟩ ↔
        matchingClose task.text opening = some (some stop.position))) ∧
    (∀ X start, start.position ≤ task.text.length → start.depth ≤ task.dialect.nestingLimit →
      ∃ answer, ∀ steps, 5 * (task.text.length - start.position) + 5 ≤ steps →
        outcome (symbol task steps X) start = some answer) ∧
    outcome (watchedWhole task) ⟨0, 0⟩
      = some ((Formula.readAndEvaluate task.dialect task.bindings task.text).map
          fun result => (⟨result.1.tree, result.2⟩, ⟨task.text.length, 0⟩)) := by
  refine ⟨?_, ?_, ?_, outcome_watchedWhole task⟩
  · intro steps part start result stop hbegins h
    exact advances_program (advancing_symbol task steps) hbegins h
  · intro steps opening depth content stop hopen h
    exact returns_expectClose_iff_matchingClose hopen (advancing_symbol task steps .sum h)
  · intro X start hposition hdepth
    exact exists_outcome_symbol task X hposition hdepth

/-- A power of a group that has another group in it. -/
def nestedGroups : Task := ⟨{}, .ofList [("x", .unit)], "-(2*(1+x))^2".toList⟩

/-- The outer group is passed as a whole, and it ends where its content does. -/
theorem progress_and_balance_group :
    Returns (Part.group.program nestedGroups (symbol nestedGroups 65)) ⟨1, 0⟩
        ⟨.binary .mul (.leaf "2") (.binary .add (.leaf "1") (.leaf "x")), ⟨2, 2⟩⟩ ⟨10, 0⟩ ∧
      Advances nestedGroups.text ⟨1, 0⟩ ⟨10, 0⟩ ∧
      matchingClose nestedGroups.text 1 = some (some 9) ∧
      ∃ answer, ∀ steps, 65 ≤ steps →
        outcome (symbol nestedGroups steps .sum) ⟨0, 0⟩ = some answer := by
  obtain ⟨hgroup, hcontent, hend⟩ :
      Returns (Part.group.program nestedGroups (symbol nestedGroups 65)) ⟨1, 0⟩
          ⟨.binary .mul (.leaf "2") (.binary .add (.leaf "1") (.leaf "x")), ⟨2, 2⟩⟩ ⟨10, 0⟩ ∧
        Returns (symbol nestedGroups 65 .sum) ⟨2, 1⟩
          ⟨.binary .mul (.leaf "2") (.binary .add (.leaf "1") (.leaf "x")), ⟨2, 2⟩⟩ ⟨9, 1⟩ ∧
        Returns (expectClose nestedGroups 1) ⟨9, 1⟩ () ⟨10, 1⟩ := by decide +kernel
  obtain ⟨hadvances, hclose, houtcome, -⟩ := progress_and_balance nestedGroups
  refine ⟨hgroup, hadvances 65 .group _ _ _ (by decide) hgroup, ?_, ?_⟩
  · exact (hclose 65 1 1 _ _ (by decide) hcontent).1 hend
  · exact houtcome .sum ⟨0, 0⟩ (by decide) (by decide)

end ComplexFormula.Positional
