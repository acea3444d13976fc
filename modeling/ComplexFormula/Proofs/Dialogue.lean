/-
# The questions of a dialogue

Asking for values puts one question for each name that is not bound, and binds them all
unless an answer is refused.

* `Dialogue` : the exchanges of a dialogue, and its outcome;
* `Answers` : the names that were asked for;
* `records_dialogue`, `records_askFor` : what a dialogue asks;
* `Bindings.contains_of_complete` : a completed table binds the variables of the text.
-/
import ComplexFormula.Bindings.Dialogue
import ComplexFormula.Proofs.Recording

namespace ComplexFormula

/-! ## Tables -/

/-- A name is bound after binding it. -/
theorem Bindings.contains_insert_self (b : Bindings) (name : String) (value : Complex) :
    (b.insert name value).contains name = true := by
  rw [contains, get?_insert, if_pos rfl]
  rfl

/-- A name that is bound stays bound. -/
theorem Bindings.contains_insert {b : Bindings} {other : String}
    (h : b.contains other = true) (name : String) (value : Complex) :
    (b.insert name value).contains other = true := by
  rw [contains, get?_insert]
  split
  · rfl
  · exact h

/-! ## Dialogues -/

/-- `Dialogue names known exchanges outcome`: asking for some names leads to the outcome through
exchanges of a name and an answer. -/
inductive Dialogue : List String → Bindings → List (String × Option String) →
    Except BindingError Bindings → Prop
  | done (known : Bindings) : Dialogue [] known [] (.ok known)
  | skip {names : List String} {name : String} {known : Bindings}
      {exchanges : List (String × Option String)} {outcome : Except BindingError Bindings}
      (hname : known.contains name = true) (h : Dialogue names known exchanges outcome) :
      Dialogue (name :: names) known exchanges outcome
  | refused {names : List String} {name : String} {known : Bindings} {answer : Option String}
      {reason : BindingError} (hname : known.contains name = false)
      (hanswer : Bindings.readAnswer name answer = .error reason) :
      Dialogue (name :: names) known [(name, answer)] (.error reason)
  | answered {names : List String} {name : String} {known : Bindings} {answer : Option String}
      {value : Complex} {exchanges : List (String × Option String)}
      {outcome : Except BindingError Bindings} (hname : known.contains name = false)
      (hanswer : Bindings.readAnswer name answer = .ok value)
      (h : Dialogue names (known.insert name value) exchanges outcome) :
      Dialogue (name :: names) known ((name, answer) :: exchanges) outcome

/-! ## Names that are asked for -/

/-- The questions of a dialogue for some names: no name is asked for twice, and none that is
known. If all questions are answered, all names are bound. -/
structure Answers (names : List String) (known : Bindings) (asked : List String)
    (outcome : Except BindingError Bindings) : Prop where
  nodup : asked.Nodup
  unknown : ∀ name ∈ asked, known.contains name = false
  subset : ∀ name ∈ asked, name ∈ names
  covers : ∀ bindings, outcome = .ok bindings →
    ∀ name, name ∈ names ∨ known.contains name = true → bindings.contains name = true

namespace Answers

variable {names asked : List String} {name : String} {known : Bindings}
  {outcome : Except BindingError Bindings}

/-- A dialogue for no names. -/
theorem nil : Answers [] known [] (.ok known) where
  nodup := List.nodup_nil
  unknown := by simp
  subset := by simp
  covers := by
    intro bindings hok name hname
    rw [Except.ok.inj hok] at hname
    exact hname.resolve_left List.not_mem_nil

/-- A name that is known is passed over. -/
theorem skip (hname : known.contains name = true) (h : Answers names known asked outcome) :
    Answers (name :: names) known asked outcome where
  nodup := h.nodup
  unknown := h.unknown
  subset other hother := List.mem_cons_of_mem name (h.subset other hother)
  covers := by
    intro bindings hok other hother
    refine h.covers bindings hok other ?_
    rcases hother with hother | hother
    · rcases List.mem_cons.1 hother with rfl | hother
      · exact Or.inr hname
      · exact Or.inl hother
    · exact Or.inr hother

/-- After an answer that is refused no more is asked. -/
theorem refused (hname : known.contains name = false) (reason : BindingError) :
    Answers (name :: names) known [name] (.error reason) where
  nodup := by simp
  unknown other hother := by
    rw [List.mem_singleton.1 hother]
    exact hname
  subset other hother := by
    rw [List.mem_singleton.1 hother]
    exact List.mem_cons_self
  covers bindings hok := by simp at hok

/-- After an answer its name is known. -/
theorem answered {value : Complex} (hname : known.contains name = false)
    (h : Answers names (known.insert name value) asked outcome) :
    Answers (name :: names) known (name :: asked) outcome where
  nodup := by
    -- the name is bound when the others are asked for
    refine List.nodup_cons.2 ⟨fun hmem => ?_, h.nodup⟩
    have hunknown := h.unknown name hmem
    rw [Bindings.contains_insert_self] at hunknown
    exact absurd hunknown (by decide)
  unknown := by
    intro other hother
    rcases List.mem_cons.1 hother with rfl | hother
    · exact hname
    · have hunknown := h.unknown other hother
      rw [← Bool.not_eq_true] at hunknown ⊢
      exact fun hknown => hunknown (Bindings.contains_insert hknown name value)
  subset := by
    intro other hother
    rcases List.mem_cons.1 hother with rfl | hother
    · exact List.mem_cons_self
    · exact List.mem_cons_of_mem name (h.subset other hother)
  covers := by
    intro bindings hok other hother
    refine h.covers bindings hok other ?_
    rcases hother with hother | hother
    · rcases List.mem_cons.1 hother with rfl | hother
      · exact Or.inr (Bindings.contains_insert_self known other value)
      · exact Or.inl hother
    · exact Or.inr (Bindings.contains_insert hother name value)

/-- After a refused answer nothing is asked for further names. -/
theorem stopped {reason : BindingError} (h : Answers names known asked (.error reason))
    (names' : List String) : Answers (names ++ names') known asked (.error reason) where
  nodup := h.nodup
  unknown := h.unknown
  subset name hname := List.mem_append_left names' (h.subset name hname)
  covers bindings hok := by simp at hok

/-- Two dialogues, one with the table of the other, are a dialogue for all the names. -/
theorem append {names' asked' : List String} {bindings : Bindings}
    (h : Answers names known asked (.ok bindings))
    (h' : Answers names' bindings asked' outcome) :
    Answers (names ++ names') known (asked ++ asked') outcome where
  nodup := by
    -- what was asked for first is bound by then, so it is not asked for again
    refine List.nodup_append.2 ⟨h.nodup, h'.nodup, ?_⟩
    rintro name hname other hother rfl
    have hbound := h.covers bindings rfl name (Or.inl (h.subset name hname))
    rw [h'.unknown name hother] at hbound
    exact absurd hbound (by decide)
  unknown := by
    intro name hname
    rcases List.mem_append.1 hname with hname | hname
    · exact h.unknown name hname
    · have hunbound := h'.unknown name hname
      rw [← Bool.not_eq_true] at hunbound ⊢
      exact fun hknown => hunbound (h.covers bindings rfl name (Or.inr hknown))
  subset := by
    intro name hname
    rcases List.mem_append.1 hname with hname | hname
    · exact List.mem_append_left names' (h.subset name hname)
    · exact List.mem_append_right names (h'.subset name hname)
  covers := by
    intro bindings' hok name hname
    refine h'.covers bindings' hok name ?_
    rcases hname with hname | hname
    · rcases List.mem_append.1 hname with hname | hname
      · exact Or.inr (h.covers bindings rfl name (Or.inl hname))
      · exact Or.inl hname
    · exact Or.inr (h.covers bindings rfl name (Or.inr hname))

end Answers

/-- **A dialogue asks for each name that is not known.** -/
theorem Dialogue.answers {names : List String} {known : Bindings}
    {exchanges : List (String × Option String)} {outcome : Except BindingError Bindings}
    (h : Dialogue names known exchanges outcome) :
    Answers names known (exchanges.map Prod.fst) outcome := by
  induction h with
  | done known => exact Answers.nil
  | skip hname h ih => exact ih.skip hname
  | refused hname hanswer => exact Answers.refused hname _
  | answered hname hanswer h ih => exact ih.answered hname

/-! ## Asking -/

variable {ε σ : Type}

/-- **Asking for names is a dialogue**, in which each exchange is written down. -/
theorem records_dialogue {ask : String → StateM (List ε × σ) (Option String)}
    {prompt : String → StateM σ (Option String)} (note : String → Option String → List ε)
    (hprompt : ∀ name, Records (ask name) (prompt name)
      fun answer entries => entries = note name answer)
    (names : List String) (known : Bindings) :
    Records (Bindings.askFor ask names known) (Bindings.askFor prompt names known)
      fun outcome entries => ∃ exchanges : List (String × Option String),
        entries = exchanges.flatMap (fun exchange => note exchange.1 exchange.2) ∧
          Dialogue names known exchanges outcome := by
  induction names generalizing known with
  | nil => exact Records.pure ⟨[], rfl, .done known⟩
  | cons name names ih =>
    rw [Bindings.askFor, Bindings.askFor]
    split
    · next hname =>
      refine (ih known).imp ?_
      rintro outcome entries ⟨exchanges, rfl, h⟩
      exact ⟨exchanges, rfl, h.skip hname⟩
    · next hname =>
      rw [Bool.not_eq_true] at hname
      refine (hprompt name).bind ?_
      rintro answer entries rfl
      split
      · next reason hanswer =>
        refine Records.pure ⟨[(name, answer)], ?_, .refused hname hanswer⟩
        rw [List.flatMap_singleton, List.append_nil]
      · next value hanswer =>
        refine (ih (known.insert name value)).imp ?_
        rintro outcome entries ⟨exchanges, rfl, h⟩
        exact ⟨(name, answer) :: exchanges, rfl, h.answered hname hanswer⟩

/-- **A dialogue puts one question for each name that is not known.** -/
theorem records_askFor {ask : String → StateM (List String × σ) (Option String)}
    {prompt : String → StateM σ (Option String)} {question : String → String}
    (hprompt : ∀ name, Records (ask name) (prompt name) fun _ texts => texts = [question name])
    (names : List String) (known : Bindings) :
    Records (Bindings.askFor ask names known) (Bindings.askFor prompt names known)
      fun outcome texts => ∃ asked, texts = asked.map question ∧
        Answers names known asked outcome := by
  refine (records_dialogue (fun name _ => [question name]) hprompt names known).imp ?_
  rintro outcome texts ⟨exchanges, rfl, h⟩
  refine ⟨exchanges.map Prod.fst, ?_, h.answers⟩
  rw [List.map_map, List.map_eq_flatMap]
  rfl

/-- **A completed table binds the variables of the text**, whatever the answers depend on. -/
theorem Bindings.contains_of_complete {prompt : String → StateM σ (Option String)}
    {dialect : Dialect} {text : String} {known bindings : Bindings} {s : σ}
    (h : ((complete prompt dialect text known).run s).1 = .ok bindings) {name : String}
    (hname : name ∈ variableNames dialect text) : bindings.contains name = true := by
  -- any recorded prompt will do, since the outcome is that of the plain one
  have hrecords := @records_askFor σ (fun name => recording [name] (prompt name)) prompt id
    (fun name => Records.recording [name] (prompt name)) (variableNames dialect text) known
  obtain ⟨texts, -, asked, -, hanswers⟩ := hrecords [] s
  exact hanswers.covers bindings h name (Or.inl hname)

end ComplexFormula
