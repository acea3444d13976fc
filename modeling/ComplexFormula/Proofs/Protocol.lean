/-
# The protocol of a dialogue

A dialogue about a text asks for the names that the text needs and the table does not bind, each
at its first appearance. The answers are literals up to the one that is refused, if any is.

* `Bindings.readAnswer_eq_ok_iff`, `Bindings.readAnswer_eq_error_iff` : what an answer is worth;
* `IsWanted` : the names to ask for;
* `Protocol` : the exchanges of a dialogue, and what they lead to;
* `Dialogue.protocol` : every dialogue is such a one;
* `Bindings.protocol_of_complete` : the dialogue about a text.
-/
import Mathlib.Data.List.TakeWhile
import ComplexFormula.Proofs.Dialogue
import ComplexFormula.Proofs.Scanning
import ComplexFormula.Proofs.Value

namespace ComplexFormula

/-! ## Blanks -/

/-- Nothing is left between the blanks of a text exactly if there is nothing else. -/
theorem trimBlanks_eq_nil_iff {s : List Char} :
    trimBlanks s = [] ↔ ∀ c ∈ s, isBlank c = true := by
  rw [trimBlanks, List.reverse_eq_nil_iff, List.dropWhile_eq_nil_iff]
  simp only [List.mem_reverse]
  constructor
  · intro h
    rw [← List.takeWhile_append_dropWhile (p := isBlank) (l := s), List.forall_mem_append]
    exact ⟨fun c hc => List.mem_takeWhile_imp hc, h⟩
  · exact fun h c hc => h c ((List.dropWhile_sublist _).subset hc)

/-- Nothing is left without the blanks exactly if there is nothing else. -/
theorem withoutBlanks_eq_nil_iff {s : List Char} :
    withoutBlanks s = [] ↔ ∀ c ∈ s, isBlank c = true := by
  simp [withoutBlanks, List.filter_eq_nil_iff]

/-! ## Answers -/

namespace Complex

/-- A real part is not refused as empty. -/
theorem readReal_ne_empty (s : List Char) : readReal s ≠ .error .empty := by
  rw [readReal]
  split <;> simp

/-- An imaginary part is not refused as empty. -/
theorem readImaginary_ne_empty (s : List Char) : readImaginary s ≠ .error .empty := by
  rw [readImaginary]
  split
  · simp
  · simp
  · simp
  · split <;> simp

/-- Only the empty text is refused as empty. -/
theorem ofBareLiteral_eq_empty_iff {s : List Char} :
    ofBareLiteral s = .error .empty ↔ s = [] := by
  constructor
  · intro h
    rw [← List.isEmpty_iff]
    by_contra hs
    rw [ofBareLiteral, if_neg hs] at h
    split at h
    · obtain h | ⟨re, -, h⟩ := bind_eq_error_iff.1 h
      · exact readReal_ne_empty s h
      · cases h
    · split at h
      · simp at h
      · split at h
        · obtain h | ⟨im, -, h⟩ := bind_eq_error_iff.1 h
          · exact readImaginary_ne_empty s h
          · cases h
        · next real imaginary hsplit =>
          split at h
          · simp at h
          · obtain h | ⟨re, -, h⟩ := bind_eq_error_iff.1 h
            · exact readReal_ne_empty real h
            · obtain h | ⟨im, -, h⟩ := bind_eq_error_iff.1 h
              · exact readImaginary_ne_empty imaginary h
              · cases h
  · rintro rfl
    rfl

/-- Only blank texts are refused as empty. -/
theorem ofLiteral_eq_empty_iff {text : String} :
    ofLiteral text = .error .empty ↔ ∀ c ∈ text.toList, isBlank c = true := by
  rw [ofLiteral, ofBareLiteral_eq_empty_iff, withoutBlanks_eq_nil_iff]

end Complex

/-- An answer is a literal of some value. -/
def IsAnswer (answer : Option String) (value : Complex) : Prop :=
  ∃ text, answer = some text ∧ Complex.ofLiteral text = .ok value

/-- Why a name gets no value: there is no answer, or a blank one, or one that the reader of
literals refuses, for a reason other than that it is empty. -/
inductive Refusal (name : String) : Option String → BindingError → Prop
  | missing : Refusal name none (.cancelled name)
  | blank {text : String} (h : ∀ c ∈ text.toList, isBlank c = true) :
    Refusal name (some text) (.cancelled name)
  | noLiteral {text : String} {reason : LiteralError}
    (hblank : ¬ ∀ c ∈ text.toList, isBlank c = true)
    (h : Complex.ofLiteral text = .error reason) (hreason : reason ≠ .empty) :
    Refusal name (some text) (.badAnswer name reason)

namespace Bindings

section

variable {name text : String}

/-- A blank answer is none. -/
theorem readAnswer_of_blank (h : ∀ c ∈ text.toList, isBlank c = true) :
    readAnswer name (some text) = .error (.cancelled name) := by
  rw [readAnswer, if_pos (List.isEmpty_iff.2 (trimBlanks_eq_nil_iff.2 h))]

/-- Any other answer is read as a literal. -/
theorem readAnswer_of_not_blank (h : ¬ ∀ c ∈ text.toList, isBlank c = true) :
    readAnswer name (some text) = (Complex.ofLiteral text).mapError (.badAnswer name) := by
  rw [readAnswer, if_neg fun hempty => h (trimBlanks_eq_nil_iff.1 (List.isEmpty_iff.1 hempty))]

end

/-- **The answers that give a value.** -/
theorem readAnswer_eq_ok_iff {name : String} {answer : Option String} {value : Complex} :
    readAnswer name answer = .ok value ↔ IsAnswer answer value := by
  cases answer with
  | none => simp [readAnswer, IsAnswer]
  | some text =>
    by_cases hblank : ∀ c ∈ text.toList, isBlank c = true
    · -- a blank text is no literal
      rw [readAnswer_of_blank hblank]
      simp [IsAnswer, Complex.ofLiteral_eq_empty_iff.2 hblank]
    · rw [readAnswer_of_not_blank hblank, mapError_eq_ok_iff]
      simp [IsAnswer]

/-- **The answers that are refused.** -/
theorem readAnswer_eq_error_iff {name : String} {answer : Option String}
    {reason : BindingError} :
    readAnswer name answer = .error reason ↔ Refusal name answer reason := by
  constructor
  · intro h
    cases answer with
    | none =>
      rw [← Except.error.inj h]
      exact .missing
    | some text =>
      by_cases hblank : ∀ c ∈ text.toList, isBlank c = true
      · rw [readAnswer_of_blank hblank] at h
        rw [← Except.error.inj h]
        exact .blank hblank
      · rw [readAnswer_of_not_blank hblank] at h
        obtain ⟨reason, hliteral, rfl⟩ := mapError_eq_error_iff.1 h
        refine .noLiteral hblank hliteral ?_
        rintro rfl
        exact hblank (Complex.ofLiteral_eq_empty_iff.1 hliteral)
  · intro h
    cases h with
    | missing => rfl
    | blank hblank => exact readAnswer_of_blank hblank
    | noLiteral hblank h hreason =>
      rw [readAnswer_of_not_blank hblank, h]
      rfl

end Bindings

/-! ## Names to ask for -/

/-- Dropping others keeps the order of first appearance. -/
theorem idxOf_filter_lt_iff {p : String → Bool} {x y : String} (hx : p x = true)
    (hy : p y = true) (l : List String) :
    (l.filter p).idxOf x < (l.filter p).idxOf y ↔ l.idxOf x < l.idxOf y := by
  induction l with
  | nil => rfl
  | cons z l ih =>
    by_cases hzx : z = x
    · subst hzx
      by_cases hzy : z = y
      · simp [hzy]
      · simp [hx, hzy]
    · by_cases hzy : z = y
      · subst hzy
        simp [hy]
      · cases hz : p z with
        | false => simp [hz, hzx, hzy, ih]
        | true => simp [hz, hzx, hzy, ih]

/-- Each name is kept where it appears first. -/
theorem pairwise_idxOf_eraseDups :
    ∀ l : List String, l.eraseDups.Pairwise fun x y => l.idxOf x < l.idxOf y
  | [] => List.Pairwise.nil
  | z :: l => by
    -- the names after the first one are those of a shorter list, without that name
    have hother : ∀ y ∈ (l.filter fun y => !y == z).eraseDups, (!y == z) = true :=
      fun y hy => (List.mem_filter.1 (List.mem_eraseDups.1 hy)).2
    have hne : ∀ y ∈ (l.filter fun y => !y == z).eraseDups, z ≠ y := by
      rintro y hy rfl
      simpa using hother z hy
    rw [List.eraseDups_cons, List.pairwise_cons]
    constructor
    · intro y hy
      rw [List.idxOf_cons_self, List.idxOf_cons_ne _ (hne y hy)]
      exact Nat.succ_pos _
    · refine (pairwise_idxOf_eraseDups (l.filter fun y => !y == z)).imp_of_mem ?_
      intro x y hx hy hxy
      rw [List.idxOf_cons_ne _ (hne x hx), List.idxOf_cons_ne _ (hne y hy)]
      exact Nat.succ_lt_succ ((idxOf_filter_lt_iff (hother x hx) (hother y hy) l).1 hxy)
termination_by l => l.length
decreasing_by exact Nat.lt_succ_of_le (List.length_filter_le _ _)

/-- The names that a text needs and a table does not bind, without repetition, in the order in
which they first appear in the normal form. -/
structure IsWanted (dialect : Dialect) (text : String) (known : Bindings)
    (wanted : List String) : Prop where
  mem_iff : ∀ name, name ∈ wanted ↔
    name ∈ scannedNames dialect (normalChars dialect text.toList) ∧ isReserved name = false ∧
      known.contains name = false
  nodup : wanted.Nodup
  ordered : wanted.Pairwise fun x y =>
    (scannedNames dialect (normalChars dialect text.toList)).idxOf x
      < (scannedNames dialect (normalChars dialect text.toList)).idxOf y

/-- There is one list of such names. -/
theorem IsWanted.unique {dialect : Dialect} {text : String} {known : Bindings}
    {wanted wanted' : List String} (h : IsWanted dialect text known wanted)
    (h' : IsWanted dialect text known wanted') : wanted = wanted' := by
  have hperm : wanted.Perm wanted' := (List.perm_ext_iff_of_nodup h.nodup h'.nodup).2
    fun name => (h.mem_iff name).trans (h'.mem_iff name).symm
  exact hperm.eq_of_pairwise (fun x y _ _ hxy hyx => absurd hxy hyx.asymm) h.ordered h'.ordered

/-- The variables of a text in the order in which they first appear. -/
theorem pairwise_idxOf_variableNames (dialect : Dialect) (text : String) :
    (variableNames dialect text).Pairwise fun x y =>
      (scannedNames dialect (normalChars dialect text.toList)).idxOf x
        < (scannedNames dialect (normalChars dialect text.toList)).idxOf y := by
  refine (pairwise_idxOf_eraseDups _).imp_of_mem ?_
  intro x y hx hy hxy
  have hx' := (List.mem_filter.1 (List.mem_eraseDups.1 hx)).2
  have hy' := (List.mem_filter.1 (List.mem_eraseDups.1 hy)).2
  exact (idxOf_filter_lt_iff hx' hy' _).1 hxy

/-- No variable of a text is listed twice. -/
theorem nodup_variableNames (dialect : Dialect) (text : String) :
    (variableNames dialect text).Nodup :=
  (pairwise_idxOf_variableNames dialect text).imp fun hxy heq => (heq ▸ hxy).false

/-- The names that a table does not bind. -/
def unboundNames (known : Bindings) (names : List String) : List String :=
  names.filter fun name => !known.contains name

section

variable {known : Bindings} {name : String} {names : List String}

/-- A name that is bound is left out. -/
theorem unboundNames_cons_of_known (hname : known.contains name = true) :
    unboundNames known (name :: names) = unboundNames known names :=
  List.filter_cons_of_neg (by simp [hname])

/-- A name that is not bound is kept. -/
theorem unboundNames_cons_of_unknown (hname : known.contains name = false) :
    unboundNames known (name :: names) = name :: unboundNames known names :=
  List.filter_cons_of_pos (by simp [hname])

/-- Binding a name leaves out no other one. -/
theorem unboundNames_insert (hname : name ∉ names) (value : Complex) :
    unboundNames (known.insert name value) names = unboundNames known names := by
  refine List.filter_congr fun other hother => ?_
  have hne : other ≠ name := ne_of_mem_of_not_mem hother hname
  rw [Bindings.contains, Bindings.contains, Bindings.get?_insert, if_neg hne]

end

/-- The variables that are not bound are the names to ask for. -/
theorem isWanted_unboundNames (dialect : Dialect) (text : String) (known : Bindings) :
    IsWanted dialect text known (unboundNames known (variableNames dialect text)) where
  mem_iff name := by
    rw [unboundNames, List.mem_filter, variableNames, List.mem_eraseDups, List.mem_filter,
      and_assoc, Bool.not_eq_true', Bool.not_eq_true']
    rfl
  nodup := (nodup_variableNames dialect text).filter _
  ordered := (pairwise_idxOf_variableNames dialect text).filter _

/-! ## Protocols -/

/-- The exchanges of a dialogue for some names, and what they lead to. Either all names were
asked for and every answer is a literal: then they are bound to the values of their answers, and
any other name as before. Or the names were asked for up to one of them, and every answer before
its answer is a literal: then the outcome is the refusal of that answer. -/
inductive Protocol (wanted : List String) (known : Bindings) :
    List (String × Option String) → Except BindingError Bindings → Prop
  | answered {exchanges : List (String × Option String)} {bindings : Bindings}
      (hasked : exchanges.map Prod.fst = wanted)
      (hanswers : ∀ exchange ∈ exchanges, ∃ value, IsAnswer exchange.2 value ∧
        bindings.get? exchange.1 = some value)
      (hothers : ∀ name, name ∉ wanted → bindings.get? name = known.get? name) :
      Protocol wanted known exchanges (.ok bindings)
  | refused (earlier : List (String × Option String)) {name : String}
      {answer : Option String} {reason : BindingError}
      (hasked : (earlier ++ [(name, answer)]).map Prod.fst <+: wanted)
      (hanswers : ∀ exchange ∈ earlier, ∃ value, IsAnswer exchange.2 value)
      (hrefusal : Refusal name answer reason) :
      Protocol wanted known (earlier ++ [(name, answer)]) (.error reason)

/-- A literal in front of a dialogue. -/
theorem Protocol.cons {name : String} {answer : Option String} {value : Complex}
    {wanted : List String} {known : Bindings} {exchanges : List (String × Option String)}
    {outcome : Except BindingError Bindings} (hname : name ∉ wanted)
    (hanswer : IsAnswer answer value)
    (h : Protocol wanted (known.insert name value) exchanges outcome) :
    Protocol (name :: wanted) known ((name, answer) :: exchanges) outcome := by
  cases h with
  | answered hasked hanswers hothers =>
    refine .answered (by rw [List.map_cons, hasked]) ?_ ?_
    · refine List.forall_mem_cons.2 ⟨⟨value, hanswer, ?_⟩, hanswers⟩
      rw [hothers name hname, Bindings.get?_insert, if_pos rfl]
    · intro other hother
      rw [List.mem_cons, not_or] at hother
      rw [hothers other hother.2, Bindings.get?_insert, if_neg hother.1]
  | refused earlier hasked hanswers hrefusal =>
    refine .refused ((name, answer) :: earlier) ?_ ?_ hrefusal
    · exact (List.prefix_cons_inj name).2 hasked
    · exact List.forall_mem_cons.2 ⟨⟨value, hanswer⟩, hanswers⟩

/-- **Every dialogue follows the protocol.** -/
theorem Dialogue.protocol {names : List String} {known : Bindings}
    {exchanges : List (String × Option String)} {outcome : Except BindingError Bindings}
    (h : Dialogue names known exchanges outcome) (hnodup : names.Nodup) :
    Protocol (unboundNames known names) known exchanges outcome := by
  induction h with
  | done known => exact .answered rfl (by simp) fun _ _ => rfl
  | skip hname h ih =>
    rw [unboundNames_cons_of_known hname]
    exact ih hnodup.tail
  | @refused names name known answer reason hname hanswer =>
    rw [unboundNames_cons_of_unknown hname]
    refine .refused [] ?_ (by simp) (Bindings.readAnswer_eq_error_iff.1 hanswer)
    exact (List.prefix_cons_inj name).2 List.nil_prefix
  | @answered names name known answer value exchanges outcome hname hanswer h ih =>
    obtain ⟨hfresh, hnodup⟩ := List.nodup_cons.1 hnodup
    have hrest := ih hnodup
    rw [unboundNames_insert hfresh] at hrest
    rw [unboundNames_cons_of_unknown hname]
    refine Protocol.cons ?_ (Bindings.readAnswer_eq_ok_iff.1 hanswer) hrest
    exact fun hmem => hfresh (List.mem_filter.1 hmem).1

/-! ## The dialogue about a text -/

variable {σ : Type}

/-- A prompt that writes down each exchange. -/
def noted (prompt : String → StateM σ (Option String)) (name : String) :
    StateM (List (String × Option String) × σ) (Option String) :=
  fun (log, s) =>
    let (answer, s') := (prompt name).run s
    (answer, (log ++ [(name, answer)], s'))

/-- It does what the prompt does. -/
theorem records_noted (prompt : String → StateM σ (Option String)) (name : String) :
    Records (noted prompt name) (prompt name)
      fun answer entries => entries = [(name, answer)] :=
  fun _ _ => ⟨_, rfl, rfl⟩

/-- **The dialogue about a text**, with any prompt, whatever its state. -/
theorem Bindings.protocol_of_complete (prompt : String → StateM σ (Option String))
    (dialect : Dialect) (text : String) (known : Bindings) (s : σ) :
    ∃ (wanted : List String) (exchanges : List (String × Option String)),
      IsWanted dialect text known wanted ∧
      (complete (noted prompt) dialect text known).run ([], s)
        = (((complete prompt dialect text known).run s).1,
            (exchanges, ((complete prompt dialect text known).run s).2)) ∧
      Protocol wanted known exchanges ((complete prompt dialect text known).run s).1 := by
  have hrecords := records_dialogue (fun name answer => [(name, answer)]) (records_noted prompt)
    (variableNames dialect text) known
  obtain ⟨entries, hrun, exchanges, rfl, h⟩ := hrecords [] s
  refine ⟨_, exchanges, isWanted_unboundNames dialect text known, ?_,
    h.protocol (nodup_variableNames dialect text)⟩
  rw [List.nil_append, List.flatMap_singleton'] at hrun
  exact hrun

example :
    ((Bindings.complete (noted fun _ answers => (answers.head?, answers.tail)) {} "z+x*y*x+w"
        (.ofList [("z", .unit)])).run ([], ["1-i", " ", "3"])).2
      = ([("x", some "1-i"), ("y", some " ")], ["3"]) := by
  decide +kernel

end ComplexFormula
