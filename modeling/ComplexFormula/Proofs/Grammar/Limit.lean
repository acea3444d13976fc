/-
# Limits of nesting

Only the readers count the groups, calls and roots that are open. The normal form and the
derivations of the grammar do not depend on how many may be open at once.

* `Dialect.withLimit` : a dialect with another limit;
* `normalChars_withLimit`, `Derives.withLimit` : what does not depend on the limit;
* `Derives.depth_unique` : a whole text has one depth;
* `openings` : how many groups, calls and roots a text can open;
* `Fails.levels_lt_openings` : where reading is nested too deep, the text opens more than the
  levels that were left.
-/
import ComplexFormula.Proofs.Grammar.Complete
import ComplexFormula.Proofs.Normal

namespace ComplexFormula

open Reader

/-! ## Another limit -/

/-- The dialect with another limit of nesting. -/
def Dialect.withLimit (dialect : Dialect) (limit : Nat) : Dialect :=
  { dialect with nestingLimit := limit }

/-- Lexemes do not depend on the limit. -/
theorem lexemes_withLimit (dialect : Dialect) (limit : Nat) (s : List Char) :
    lexemes (dialect.withLimit limit) s = lexemes dialect s := by
  fun_induction lexemes dialect s with
  | case1 => exact lexemes_nil _
  | case2 c rest hc f after hread ih =>
    rw [lexemes_of_call (dialect.withLimit limit) hc hread, ih]
  | case3 c rest hc letters after hread ih =>
    rw [lexemes_of_name (dialect.withLimit limit) hc hread, ih]
  | case4 c rest hc ih =>
    rw [lexemes_of_symbol (dialect.withLimit limit) (by simpa using hc), ih]

/-- **The normal form does not depend on the limit.** -/
theorem normalChars_withLimit (dialect : Dialect) (limit : Nat) (s : List Char) :
    normalChars (dialect.withLimit limit) s = normalChars dialect s := by
  have hspell : ∀ xs, spell (dialect.withLimit limit) xs = spell dialect xs := spell_congr rfl
  rw [normalChars, lexemes_withLimit, hspell]
  rfl

/-- **A derivation does not depend on the limit.** -/
theorem Derives.withLimit {dialect : Dialect} {X : Precedence} {depth : Nat} {f : Formula}
    {s rest : List Char} (h : Derives dialect X depth f s rest) (limit : Nat) :
    Derives (dialect.withLimit limit) X depth f s rest :=
  h.of_read (by intro s; rfl)

/-! ## The depth of a text -/

/-- What is nested more deeply than the levels that are left is not read. -/
theorem exists_fault_of_levels_lt {page : Page} {levels : Nat} {X : Precedence} {depth : Nat}
    {f : Formula} {s rest : List Char} (h : Derives page.dialect X depth f s rest)
    (hlevels : levels < depth) :
    ∃ fault, (X.reader (primary page levels)).read s = .error fault := by
  induction h generalizing levels with
  | @operand X depth f s rest hX h ih =>
    obtain ⟨fault, hfault⟩ := ih hlevels
    refine ⟨fault, read_of_operand_fault hX (fun hsigned => ?_) hfault⟩
    subst hsigned
    exact h.head_ne_minus rfl
  | @chain X op c depth depth' f g s s' rest hX hleft hop hright ihl ihr =>
    -- a left part with levels enough is read, and then the operand behind it is not
    by_cases hdepth : depth ≤ levels
    · have hdepth' : levels < depth' := by omega
      obtain ⟨fault, hfault⟩ := ihr hdepth'
      refine ⟨fault.after f, ?_⟩
      rw [read_eq_resume_of_derives hleft hdepth (Precedence.follows_of_operator s' hop hX)]
      exact Precedence.resume_operator_of_fault hop hX hfault
    · exact ihl (Nat.lt_of_not_le hdepth)
  | negation h ih =>
    obtain ⟨fault, hfault⟩ := ih hlevels
    refine ⟨fault, ?_⟩
    change (primary page levels).read _ = _ at hfault
    show (signed (primary page levels)).read _ = _
    simp only [signed, hfault]
  | root h ih =>
    show ∃ fault, (primary page levels).read _ = .error fault
    rw [read_primary, readPrimary_root]
    cases levels with
    | zero => exact ⟨_, rfl⟩
    | succ n =>
      obtain ⟨fault, hfault⟩ := ih (Nat.lt_of_succ_lt_succ hlevels)
      change (signed (primary page n)).read _ = _ at hfault
      exact ⟨fault, by simp only [nestedReader, readRoot, hfault]⟩
  | @literal content rest value h =>
    obtain rfl : levels = 0 := Nat.lt_one_iff.1 hlevels
    show ∃ fault, (primary page 0).read _ = .error fault
    have hindex := closingIndex?_eq_some_iff.2
      ⟨content, rest, rfl, Balanced.of_literal h, rfl⟩
    rw [read_primary, List.cons_append, readPrimary_open, readGroup, hindex]
    exact ⟨_, rfl⟩
  | @group depth f content rest hliteral h ih =>
    show ∃ fault, (primary page levels).read _ = .error fault
    obtain ⟨p, hp, -, hbalanced⟩ := h.exists_balanced
    obtain rfl := List.append_cancel_right hp
    have hindex := closingIndex?_eq_some_iff.2 ⟨content, rest, rfl, hbalanced, rfl⟩
    rw [read_primary, List.cons_append, readPrimary_open, readGroup, hindex]
    cases levels with
    | zero => exact ⟨_, rfl⟩
    | succ n =>
      obtain ⟨fault, hfault⟩ := ih (Nat.lt_of_succ_lt_succ hlevels)
      change (sum (primary page n)).read _ = _ at hfault
      refine ⟨fault, ?_⟩
      rcases groupLiteral?_eq content with ⟨value, hvalue, -⟩ | ⟨-, hgroup⟩
      · exact absurd hvalue (hliteral value)
      · simp only [nestedReader, List.take_left, hgroup, readEnclosed, hfault]
  | @call depth function c f s s' rest hc hread h ih =>
    show ∃ fault, (primary page levels).read _ = .error fault
    rw [read_primary, readPrimary_letter hc, readIdentifier, hread]
    simp only [List.tail_cons]
    cases levels with
    | zero => exact ⟨_, rfl⟩
    | succ n =>
      obtain ⟨fault, hfault⟩ := ih (Nat.lt_of_succ_lt_succ hlevels)
      change (sum (primary page n)).read _ = _ at hfault
      exact ⟨fault, by simp only [nestedReader, readEnclosed, hfault]⟩
  | name hc hread => exact absurd hlevels (Nat.not_lt_zero _)
  | numeral hne hrun hmaximal hread => exact absurd hlevels (Nat.not_lt_zero _)

/-- The levels that a whole text is read with are no fewer than its depth. -/
theorem Derives.depth_le {dialect : Dialect} {X : Precedence} {depth depth' : Nat}
    {f g : Formula} {s : List Char} (hf : Derives dialect X depth f s [])
    (hg : Derives dialect X depth' g s []) : depth' ≤ depth := by
  refine Nat.le_of_not_lt fun hlt => ?_
  let page := Page.ofText dialect s
  have hread : (X.reader (Reader.primary page depth)).read s = .ok (f, []) :=
    read_of_derives hf (Nat.le_refl depth) (Precedence.follows_nil X)
  have hdeep : Derives page.dialect X depth' g s [] := hg
  obtain ⟨fault, hfault⟩ := exists_fault_of_levels_lt hdeep hlt
  rw [hread] at hfault
  simp at hfault

/-- **A whole text has one depth.** -/
theorem Derives.depth_unique {dialect : Dialect} {X : Precedence} {depth depth' : Nat}
    {f g : Formula} {s : List Char} (hf : Derives dialect X depth f s [])
    (hg : Derives dialect X depth' g s []) : depth = depth' :=
  Nat.le_antisymm (hg.depth_le hf) (hf.depth_le hg)

/-! ## What a text opens -/

/-- Whether a character opens a group, the argument of a call or a root. -/
def isOpening (c : Char) : Bool := c == '(' || c == rootSign

/-- The number of groups, calls and roots that a text can open. -/
def openings (s : List Char) : Nat := s.countP isOpening

/-- A parenthesis opens one more. -/
theorem openings_open (s : List Char) : openings ('(' :: s) = openings s + 1 :=
  List.countP_cons_of_pos rfl

/-- A root sign opens one more. -/
theorem openings_root (s : List Char) : openings (rootSign :: s) = openings s + 1 :=
  List.countP_cons_of_pos (by decide)

/-- A rest of a text opens no more than the text. -/
theorem openings_le_of_suffix {s t : List Char} (h : s <:+ t) : openings s ≤ openings t :=
  h.sublist.countP_le

/-- A normal form opens as many as its text. -/
theorem openings_normalChars (dialect : Dialect) (s : List Char) :
    openings (normalChars dialect s) = openings s := by
  refine countP_normalChars (by decide) (fun c hc => ?_) dialect s
  have hopen : isBlank '(' = false := by decide
  have hroot : isBlank rootSign = false := by decide
  rw [isOpening, Bool.or_eq_false_iff, beq_eq_false_iff_ne, beq_eq_false_iff_ne]
  constructor
  · rintro rfl
    exact absurd (hc.symm.trans hopen) (by decide)
  · rintro rfl
    exact absurd (hc.symm.trans hroot) (by decide)

/-! ## Where reading is nested too deep -/

/-- A group that does not end behind its formula is not nested too deep. -/
theorem Reader.reason_ne_of_close {page : Page} {inside s : List Char} {f : Formula}
    {fault : Fault} (h : close page inside f s = .error fault) (limit : Nat) :
    fault.reason ≠ .nestedTooDeep limit := by
  unfold close at h
  split at h
  · simp at h
  · split at h
    · rw [← Except.error.inj h]
      simp
    · rw [← Except.error.inj h]
      simp

/-- A missing numeral is not nested too deep. -/
theorem Reader.reason_ne_of_readNumeral {page : Page} {s : List Char} {fault : Fault}
    (h : readNumeral page s = .error fault) (limit : Nat) :
    fault.reason ≠ .nestedTooDeep limit := by
  unfold readNumeral at h
  simp only at h
  split at h
  · rw [← Except.error.inj h]
    simp [Fault.ofReason]
  · split at h
    · simp at h
    · rw [← Except.error.inj h]
      simp [Fault.ofReason]

/-- A call opens a level. -/
theorem openings_lt_of_read_call {dialect : Dialect} {s inside : List Char} {f : RealFunction}
    (h : Identifier.read dialect s = (.call f, '(' :: inside)) : openings inside < openings s := by
  have hle := openings_le_of_suffix (Identifier.suffix_of_read_call h)
  rwa [openings_open] at hle

/-- **Where reading is nested too deep, the text opens more than the levels that were left.** -/
theorem Fails.levels_lt_openings {page : Page} {X : Precedence} {levels limit : Nat}
    {fault : Fault} {s : List Char} (h : Fails page X levels fault s)
    (hreason : fault.reason = .nestedTooDeep limit) : levels < openings s := by
  -- each level that was opened on the way used up a character that opens one
  induction h with
  | operand hX hsign h ih => exact ih hreason
  | chain hX hleft hdepth hop hright ih =>
    have hsuffix := (List.suffix_cons _ _).trans hleft.suffix
    exact Nat.lt_of_lt_of_le (ih hreason) (openings_le_of_suffix hsuffix)
  | negation h ih =>
    exact Nat.lt_of_lt_of_le (ih hreason) (openings_le_of_suffix (List.suffix_cons _ _))
  | root h ih =>
    rw [openings_root]
    exact Nat.succ_lt_succ (ih hreason)
  | rootTooDeep =>
    rw [openings_root]
    exact Nat.succ_pos _
  | unclosed h => exact absurd hreason (by simp [Fault.ofReason])
  | groupTooDeep hcontent =>
    rw [List.cons_append, openings_open]
    exact Nat.succ_pos _
  | group hcontent hliteral h ih =>
    rw [List.cons_append, openings_open]
    exact Nat.succ_lt_succ (ih hreason)
  | groupEnd hcontent hliteral h hdepth hclose =>
    exact absurd hreason (Reader.reason_ne_of_close hclose limit)
  | callTooDeep hc hread => exact Nat.zero_lt_of_lt (openings_lt_of_read_call hread)
  | call hc hread h ih =>
    exact Nat.lt_of_le_of_lt (ih hreason) (openings_lt_of_read_call hread)
  | callEnd hc hread h hdepth hclose =>
    exact absurd hreason (Reader.reason_ne_of_close hclose limit)
  | numeral hroot hopen hletter h =>
    exact absurd hreason (Reader.reason_ne_of_readNumeral h limit)

end ComplexFormula
