/-
# Where products are marked

A normal form is the text without its blanks and with marks of products, which stand at the
places that a rule on the text singles out. The rule looks at the two characters beside a place
and at the identifiers around it. It does not know how a text is cut from its start to its end.

* `IsRun`, `IsCalled`, `IsIdentifier` : the words of a text, by what stands before and behind
  them;
* `IsProduct` : the rule on a place, given by what stands before and behind it;
* `Marked` : texts with marks at the places of a rule;
* `marked_withMarks` : the marks of a text are those of the rule;
* `marked_iff_eq_normalize` : normal forms are the texts that are marked by the rule;
* `Calculator.evaluate_normalize` : a normal form is its own normal form, and has the outcomes
  and the variables of the text.
-/
import Mathlib.Data.List.DropRight
import ComplexFormula.Calculator
import ComplexFormula.Proofs.Respelling

namespace ComplexFormula

/-! ## Identifiers by their surroundings -/

/-- A word is a whole run of letters, between what stands before and behind it. -/
structure IsRun (before word behind : List Char) : Prop where
  ne_nil : word ≠ []
  letters : ∀ c ∈ word, isLetter c = true
  starts : ∀ c ∈ before.getLast?, isLetter c = false
  ends : ∀ c ∈ behind.head?, isLetter c = false

/-- A word is the name of a call: it spells a function directly before a parenthesis, be it as
the end of a run of letters. Where runs are names, it has to be the whole run. -/
structure IsCalled (dialect : Dialect) (before word behind : List Char) : Prop where
  functions : dialect.functions = true
  named : ∃ f : RealFunction, f.name.toList = word
  opens : behind.head? = some '('
  whole : dialect.longNames = true → ∀ c ∈ before.getLast?, isLetter c = false

/-- The identifiers of a text: the names of calls and the names of variables. These are the
runs of letters, or the letters outside of the names of calls. -/
inductive IsIdentifier (dialect : Dialect) : List Char → List Char → List Char → Prop
  | call {before word behind : List Char} (h : IsCalled dialect before word behind) :
      IsIdentifier dialect before word behind
  | run {before word behind : List Char} (hlong : dialect.longNames = true)
      (h : IsRun before word behind) : IsIdentifier dialect before word behind
  | letter {before behind : List Char} {c : Char} (hshort : dialect.longNames = false)
      (hc : isLetter c = true)
      (houtside : ∀ front p q back, before = front ++ p → behind = q ++ back →
        ¬ IsCalled dialect front (p ++ c :: q) back) :
      IsIdentifier dialect before [c] behind

/-- A place is inside an identifier if letters of it stand on both sides. -/
def InsideIdentifier (dialect : Dialect) (before behind : List Char) : Prop :=
  ∃ front p q back, before = front ++ p ∧ behind = q ++ back ∧ p ≠ [] ∧ q ≠ [] ∧
    IsIdentifier dialect front (p ++ q) back

/-- A place is behind the name of a call, and so before its parenthesis. -/
def BehindCalled (dialect : Dialect) (before behind : List Char) : Prop :=
  ∃ front word, before = front ++ word ∧ IsCalled dialect front word behind

/-! ## The rule -/

/-- Two characters at which an operand ends and another one begins. -/
def AreFactors (a b : Char) : Prop :=
  (a.isDigit = true ∨ isLetter a = true ∨ a = ')') ∧ b = '(' ∨
    (isLetter a = true ∨ a = ')') ∧ b.isDigit = true ∨
    (a.isDigit = true ∨ a = ')') ∧ isLetter b = true ∨
    isLetter a = true ∧ isLetter b = true

/-- **Where a product is implied**: between two factors, unless the place is before the
parenthesis of a call or inside an identifier. -/
structure IsProduct (dialect : Dialect) (before behind : List Char) : Prop where
  implied : dialect.impliedProducts = true
  factors : ∃ a ∈ before.getLast?, ∃ b ∈ behind.head?, AreFactors a b
  not_called : ¬ BehindCalled dialect before behind
  not_inside : ¬ InsideIdentifier dialect before behind

/-- `Marked P before s t`: behind `before`, the text `t` is `s` with a mark of a product at each
place for which `P` holds, and at no other one. -/
inductive Marked (P : List Char → List Char → Prop) :
    List Char → List Char → List Char → Prop
  | nil {before : List Char} : Marked P before [] []
  | plain {before s t : List Char} {c : Char} (hP : ¬ P before (c :: s))
      (h : Marked P (before ++ [c]) s t) : Marked P before (c :: s) (c :: t)
  | mark {before s t : List Char} {c : Char} (hP : P before (c :: s))
      (h : Marked P (before ++ [c]) s t) : Marked P before (c :: s) (invisibleTimes :: c :: t)

section

variable {P : List Char → List Char → Prop} {before s t : List Char}

/-- A rule leaves no choice. -/
theorem Marked.unique {t' : List Char} (h : Marked P before s t) (h' : Marked P before s t') :
    t = t' := by
  induction h generalizing t' with
  | nil =>
    cases h'
    rfl
  | plain hP h ih =>
    cases h' with
    | plain _ h' => rw [ih h']
    | mark hP' _ => exact absurd hP' hP
  | mark hP h ih =>
    cases h' with
    | plain hP' _ => exact absurd hP hP'
    | mark _ h' => rw [ih h']

/-- A stretch without places of the rule is left as it is. -/
theorem Marked.append {word : List Char}
    (hword : ∀ p q, word = p ++ q → q ≠ [] → ¬ P (before ++ p) (q ++ s))
    (h : Marked P (before ++ word) s t) : Marked P before (word ++ s) (word ++ t) := by
  induction word generalizing before with
  | nil =>
    rw [List.append_nil] at h
    exact h
  | cons c word ih =>
    have hfirst : ¬ P before (c :: word ++ s) := by
      have := hword [] (c :: word) rfl (List.cons_ne_nil c word)
      rwa [List.append_nil] at this
    refine .plain hfirst (ih (fun p q hpq hq => ?_) ?_)
    · have := hword (c :: p) q (by rw [hpq, List.cons_append]) hq
      rwa [List.append_cons] at this
    · rwa [List.append_cons] at h

end

/-- The factors are the characters between which a product is implied. -/
theorem impliesProduct_iff {a b : Char} : impliesProduct a b = true ↔ AreFactors a b := by
  unfold impliesProduct AreFactors
  split
  · next hopen =>
    subst hopen
    have hdigit : '('.isDigit = false := rfl
    have hletter : isLetter '(' = false := rfl
    simp [hdigit, hletter, or_assoc]
  · next hopen =>
    split
    · next hdigit => simp [hopen, hdigit, isLetter_of_isDigit hdigit]
    · next hdigit =>
      split
      · next hletter => simp [hopen, hdigit, hletter, or_assoc]
      · next hletter => simp [hopen, hdigit, hletter]

/-! ## Places between lexemes -/

/-- Identifiers consist of letters. -/
theorem IsIdentifier.isLetter {dialect : Dialect} {before word behind : List Char}
    (h : IsIdentifier dialect before word behind) : ∀ c ∈ word, isLetter c = true := by
  cases h with
  | call h =>
    obtain ⟨f, rfl⟩ := h.named
    exact RealFunction.isLetter_of_mem_name
  | run _ h => exact h.letters
  | letter _ hc _ => simpa using hc

/-- The name of a call is not empty. -/
theorem IsCalled.ne_nil {dialect : Dialect} {before word behind : List Char}
    (h : IsCalled dialect before word behind) : word ≠ [] := by
  obtain ⟨f, rfl⟩ := h.named
  exact f.name_ne_nil

/-- A place that is neither before the parenthesis of a call nor inside an identifier. -/
structure BetweenLexemes (dialect : Dialect) (before behind : List Char) : Prop where
  not_called : ¬ BehindCalled dialect before behind
  not_inside : ¬ InsideIdentifier dialect before behind

variable {dialect : Dialect}

/-- The start of a text is between lexemes. -/
theorem betweenLexemes_start (s : List Char) : BetweenLexemes dialect [] s where
  not_called := by
    rintro ⟨front, word, happend, hcalled⟩
    exact hcalled.ne_nil (List.append_eq_nil_iff.1 happend.symm).2
  not_inside := by
    rintro ⟨front, p, q, back, happend, -, hp, -, -⟩
    exact hp (List.append_eq_nil_iff.1 happend.symm).2

/-- The last character of a text is that of the part that ends it. -/
theorem mem_of_concat_eq_append {before front p : List Char} {c : Char}
    (h : before ++ [c] = front ++ p) (hp : p ≠ []) : c ∈ p := by
  have hlast := congrArg List.getLast? h
  rw [List.getLast?_concat, List.getLast?_append_of_ne_nil _ hp] at hlast
  exact List.mem_of_getLast? hlast.symm

/-- Behind a character that is no letter a place is between lexemes. -/
theorem betweenLexemes_symbol {c : Char} (hc : isLetter c = false) (before s : List Char) :
    BetweenLexemes dialect (before ++ [c]) s where
  not_called := by
    rintro ⟨front, word, happend, hcalled⟩
    have hletter := (IsIdentifier.call hcalled).isLetter c
      (mem_of_concat_eq_append happend hcalled.ne_nil)
    exact absurd (hc.symm.trans hletter) Bool.false_ne_true
  not_inside := by
    rintro ⟨front, p, q, back, happend, -, hp, -, hidentifier⟩
    have hletter := hidentifier.isLetter c
      (List.mem_append_left q (mem_of_concat_eq_append happend hp))
    exact absurd (hc.symm.trans hletter) Bool.false_ne_true

/-- What is read as a name is no call. -/
theorem not_isCalled_of_read_name {before word s rest letters : List Char}
    (hread : Identifier.read dialect s = (.name letters, rest)) {behind : List Char}
    (hs : s = word ++ behind) : ¬ IsCalled dialect before word behind := by
  rintro ⟨hfunctions, ⟨f, rfl⟩, hopens, -⟩
  obtain ⟨tail, rfl⟩ := List.head?_eq_some_iff.1 hopens
  rw [hs, Identifier.read_of_function hfunctions] at hread
  simp at hread

/-- Where runs of letters are names, a place between lexemes has no letters on both sides. -/
theorem BetweenLexemes.isLetter_last {before s : List Char} {c : Char}
    (h : BetweenLexemes dialect before (c :: s)) (hlong : dialect.longNames = true)
    (hc : isLetter c = true) : ∀ a ∈ before.getLast?, isLetter a = false := by
  intro a ha
  by_contra hletter
  rw [Bool.not_eq_false] at hletter
  -- otherwise the place would be inside the run of letters around it
  obtain ⟨front, rfl⟩ := List.getLast?_eq_some_iff.1 ha
  refine h.not_inside ⟨(front ++ [a]).rdropWhile isLetter, (front ++ [a]).rtakeWhile isLetter,
    (c :: s).takeWhile isLetter, (c :: s).dropWhile isLetter,
    (List.rdropWhile_append_rtakeWhile).symm, (List.takeWhile_append_dropWhile).symm, ?_, ?_,
    .run hlong ⟨?_, ?_, ?_, ?_⟩⟩
  · rw [List.rtakeWhile_concat_pos _ _ _ hletter]
    simp
  · rw [List.takeWhile_cons_of_pos hc]
    exact List.cons_ne_nil _ _
  · rw [List.takeWhile_cons_of_pos hc]
    simp
  · intro x hx
    rcases List.mem_append.1 hx with hx | hx
    · exact List.mem_rtakeWhile_imp hx
    · exact List.all_eq_true.1 List.all_takeWhile x hx
  · intro x hx
    have hne : (front ++ [a]).rdropWhile isLetter ≠ [] := by
      rintro hnil
      rw [hnil] at hx
      simp at hx
    have hlast := List.rdropWhile_last_not isLetter (front ++ [a]) hne
    rw [List.getLast?_eq_some_getLast hne] at hx
    rw [← Option.some.inj hx]
    simpa using hlast
  · intro x hx
    have := List.head?_dropWhile_not isLetter (c :: s)
    rw [hx] at this
    exact this

/-- A run of letters at the end of a text is where the letters begin. -/
theorem eq_of_append_run {before front p q : List Char} (h : before ++ p = front ++ q)
    (hp : ∀ c ∈ p, isLetter c = true) (hq : ∀ c ∈ q, isLetter c = true)
    (hbefore : ∀ a ∈ before.getLast?, isLetter a = false)
    (hfront : ∀ a ∈ front.getLast?, isLetter a = false) : p = q := by
  -- a run that began further in front would have a letter where the other one has none
  have hnil : ∀ {u v w : List Char}, (∀ a ∈ (u ++ v).getLast?, isLetter a = false) →
      (∀ c ∈ v ++ w, isLetter c = true) → v = [] := by
    intro u v w hlast hletters
    rcases List.eq_nil_or_concat' v with rfl | ⟨v, a, rfl⟩
    · rfl
    · have hno := hlast a (by rw [← List.append_assoc, List.getLast?_concat]; rfl)
      have hyes := hletters a (by simp)
      exact absurd (hno.symm.trans hyes) Bool.false_ne_true
  rcases List.append_eq_append_iff.1 h with ⟨w, rfl, rfl⟩ | ⟨w, rfl, rfl⟩
  · rw [hnil hfront hp, List.nil_append]
  · rw [hnil hbefore hq, List.nil_append]

/-- Behind a run of letters that is a name a place is between lexemes. -/
theorem betweenLexemes_run {before s rest letters : List Char} {c : Char}
    (h : BetweenLexemes dialect before (c :: s)) (hlong : dialect.longNames = true)
    (hc : isLetter c = true)
    (hread : Identifier.read dialect (c :: s) = (.name letters, rest)) :
    BetweenLexemes dialect (before ++ letters) rest where
  not_called := by
    rintro ⟨front, word, happend, hcalled⟩
    obtain rfl := eq_of_append_run happend (Identifier.isLetter_of_read_name hc hread).2
      (IsIdentifier.call hcalled).isLetter (h.isLetter_last hlong hc) (hcalled.whole hlong)
    exact not_isCalled_of_read_name hread (Identifier.append_of_read_name hread).symm
      ⟨hcalled.functions, hcalled.named, hcalled.opens, fun hl => h.isLetter_last hl hc⟩
  not_inside := by
    rintro ⟨front, p, q, back, -, hrest, -, hq, hidentifier⟩
    obtain ⟨x, q, rfl⟩ := List.exists_cons_of_ne_nil hq
    have hletter := hidentifier.isLetter x (by simp)
    have hspan := Identifier.eq_of_read_name hread
    rw [if_pos hlong, Prod.mk.injEq] at hspan
    have hhead := List.head?_dropWhile_not isLetter (c :: s)
    rw [← hspan.2, hrest, List.cons_append, List.head?_cons] at hhead
    exact absurd (hletter.symm.trans hhead) (by simp)

/-- Behind a single letter that is a name a place is between lexemes. -/
theorem betweenLexemes_letter {before s : List Char} {c : Char}
    (h : BetweenLexemes dialect before (c :: s)) (hshort : dialect.longNames = false)
    (hread : Identifier.read dialect (c :: s) = (.name [c], s)) :
    BetweenLexemes dialect (before ++ [c]) s := by
  -- the name of a call that ends or goes on behind the letter begins at it or before it
  have hcalled : ∀ front p q back, before ++ [c] = front ++ p → s = q ++ back → p ≠ [] →
      ¬ IsCalled dialect front (p ++ q) back := by
    rintro front p q back hbefore rfl hp hword
    obtain ⟨p, x, rfl⟩ := (List.eq_nil_or_concat' p).resolve_left hp
    rw [← List.append_assoc] at hbefore
    obtain ⟨rfl, hlast⟩ := List.append_inj' hbefore rfl
    obtain rfl := (List.cons.inj hlast).1
    rw [List.append_assoc, List.singleton_append] at hword
    cases p with
    | nil =>
      rw [List.append_nil] at h
      exact not_isCalled_of_read_name hread rfl hword
    | cons y p =>
      exact h.not_inside ⟨front, y :: p, c :: q, back, rfl, rfl, List.cons_ne_nil y p,
        List.cons_ne_nil c q, .call hword⟩
  constructor
  · rintro ⟨front, word, hbefore, hword⟩
    refine hcalled front word [] s hbefore rfl hword.ne_nil ?_
    rwa [List.append_nil]
  · rintro ⟨front, p, q, back, hbefore, hs, hp, hq, hidentifier⟩
    generalize hpq : p ++ q = word at hidentifier
    cases hidentifier with
    | call hword => exact hcalled front p q back hbefore hs hp (hpq ▸ hword)
    | run hlong _ => exact absurd (hshort.symm.trans hlong) Bool.false_ne_true
    | letter _ _ _ =>
      have hlength := congrArg List.length hpq
      rw [List.length_append, List.length_singleton] at hlength
      have := List.length_pos_iff.2 hp
      have := List.length_pos_iff.2 hq
      omega

/-- Behind a name a place is between lexemes. -/
theorem betweenLexemes_name {before s rest letters : List Char} {c : Char}
    (h : BetweenLexemes dialect before (c :: s)) (hc : isLetter c = true)
    (hread : Identifier.read dialect (c :: s) = (.name letters, rest)) :
    BetweenLexemes dialect (before ++ letters) rest := by
  cases hlong : dialect.longNames with
  | true => exact betweenLexemes_run h hlong hc hread
  | false =>
    have hspan := Identifier.eq_of_read_name hread
    rw [hlong] at hspan
    obtain ⟨rfl, rfl⟩ := Prod.mk.inj hspan
    exact betweenLexemes_letter h hlong hread

/-! ## The marks of a text -/

/-- The mark at the start of a text, from what stands before it. -/
def leadingMark (dialect : Dialect) (before s : List Char) : List Char :=
  match before.getLast? with
  | some previous => seam dialect previous s
  | none => []

/-- Behind a character stands the mark between it and the text. -/
theorem leadingMark_concat (before s : List Char) (c : Char) :
    leadingMark dialect (before ++ [c]) s = seam dialect c s := by
  rw [leadingMark, List.getLast?_concat]

/-- **Between lexemes the rule looks at the two characters only.** -/
theorem BetweenLexemes.isProduct_iff {before s : List Char}
    (h : BetweenLexemes dialect before s) :
    IsProduct dialect before s ↔ leadingMark dialect before s = [invisibleTimes] := by
  have hfactors : leadingMark dialect before s = [invisibleTimes] ↔
      dialect.impliedProducts = true ∧
        ∃ a ∈ before.getLast?, ∃ b ∈ s.head?, impliesProduct a b = true := by
    unfold leadingMark
    cases before.getLast? with
    | none => simp
    | some a => cases s <;> simp [seam]
  rw [hfactors]
  simp only [impliesProduct_iff]
  exact ⟨fun hP => ⟨hP.implied, hP.factors⟩,
    fun hP => ⟨hP.1, hP.2, h.not_called, h.not_inside⟩⟩

/-- A leading mark is a mark or nothing. -/
theorem leadingMark_eq_or (before s : List Char) :
    leadingMark dialect before s = [] ∨ leadingMark dialect before s = [invisibleTimes] := by
  unfold leadingMark
  split
  · exact (seam_eq_or dialect _ s).imp_right And.left
  · exact Or.inl rfl

/-- The first character of a lexeme has the leading mark. -/
theorem BetweenLexemes.marked_cons {before s t : List Char} {c : Char}
    (h : BetweenLexemes dialect before (c :: s))
    (ht : Marked (IsProduct dialect) (before ++ [c]) s t) :
    Marked (IsProduct dialect) before (c :: s) (leadingMark dialect before (c :: s) ++ c :: t) := by
  rcases leadingMark_eq_or before (c :: s) with hnone | hmark
  · rw [hnone, List.nil_append]
    refine .plain (fun hP => ?_) ht
    rw [h.isProduct_iff, hnone] at hP
    exact absurd hP (by simp)
  · rw [hmark, List.singleton_append]
    exact .mark (h.isProduct_iff.2 hmark) ht

/-- The letters of an identifier behind the first one have no marks. -/
theorem marked_letters {before word s t : List Char} {c : Char}
    (h : IsIdentifier dialect before (c :: word) s)
    (ht : Marked (IsProduct dialect) (before ++ c :: word) s t) :
    Marked (IsProduct dialect) (before ++ [c]) (word ++ s) (word ++ t) := by
  rw [List.append_cons] at ht
  refine Marked.append (fun p q hpq hq hP => hP.not_inside ?_) ht
  refine ⟨before, c :: p, q, s, by simp, rfl, List.cons_ne_nil c p, hq, ?_⟩
  rwa [List.cons_append, ← hpq]

/-- What is read as a name is an identifier. -/
theorem isIdentifier_of_read_name {before s rest letters : List Char} {c : Char}
    (h : BetweenLexemes dialect before (c :: s)) (hc : isLetter c = true)
    (hread : Identifier.read dialect (c :: s) = (.name letters, rest)) :
    dialect.longNames = false ∧ letters = [c] ∨ IsIdentifier dialect before letters rest := by
  have hspan := Identifier.eq_of_read_name hread
  obtain ⟨hne, hletters⟩ := Identifier.isLetter_of_read_name hc hread
  cases hlong : dialect.longNames with
  | true =>
    rw [if_pos hlong, Prod.mk.injEq] at hspan
    refine Or.inr (.run hlong ⟨hne, hletters, h.isLetter_last hlong hc, fun x hx => ?_⟩)
    have hhead := List.head?_dropWhile_not isLetter (c :: s)
    rw [← hspan.2, hx] at hhead
    exact hhead
  | false =>
    rw [hlong] at hspan
    exact Or.inl ⟨rfl, (Prod.mk.inj hspan).1⟩

/-- **The marks of a text are those of the rule**, behind any place between lexemes. -/
theorem marked_withMarks {before s : List Char} (h : BetweenLexemes dialect before s) :
    Marked (IsProduct dialect) before s
      (leadingMark dialect before s ++ withMarks dialect s) := by
  -- behind each lexeme the place is again between lexemes
  fun_induction lexemes dialect s generalizing before with
  | case1 =>
    have hnone : leadingMark dialect before [] = [] := by
      unfold leadingMark
      split
      · exact seam_of_detached dialect detached_nil _
      · rfl
    rw [hnone, withMarks_nil]
    exact .nil
  | case2 c rest hc f after hread ih =>
    obtain ⟨inside, rfl⟩ := Identifier.exists_of_read_call hread
    have hchars := Identifier.append_of_read_call hread
    obtain ⟨x, word, hname⟩ := List.exists_cons_of_ne_nil f.name_ne_nil
    have hcalled : IsCalled dialect before f.name.toList ('(' :: inside) :=
      ⟨Identifier.functions_of_read_call hread, ⟨f, rfl⟩, rfl, fun hl => h.isLetter_last hl hc⟩
    have hnoSeam : leadingMark dialect (before ++ f.name.toList ++ ['(']) inside = [] := by
      rw [leadingMark_concat, seam_of_start dialect (by decide) (by decide) (by decide)]
    have hinside := ih (betweenLexemes_symbol (by decide : isLetter '(' = false)
      (before ++ f.name.toList) inside)
    rw [List.tail_cons, hnoSeam, List.nil_append] at hinside
    have hopen : ¬ IsProduct dialect (before ++ f.name.toList) ('(' :: inside) :=
      fun hP => hP.not_called ⟨before, f.name.toList, rfl, hcalled⟩
    rw [withMarks_call dialect hc hread]
    rw [hname] at hchars hcalled hinside hopen ⊢
    obtain ⟨rfl, hrest⟩ := List.cons.inj hchars
    rw [List.cons_append]
    refine h.marked_cons ?_
    rw [← hrest]
    exact marked_letters (.call hcalled) (.plain hopen hinside)
  | case3 c rest hc letters after hread ih =>
    obtain ⟨last, hlast, -⟩ := Identifier.exists_last_of_read_name hc hread
    have hchars := Identifier.append_of_read_name hread
    have hafter := ih (betweenLexemes_name h hc hread)
    obtain ⟨front, rfl⟩ := List.getLast?_eq_some_iff.1 hlast
    rw [← List.append_assoc, leadingMark_concat, List.append_assoc] at hafter
    rw [withMarks_name dialect hc hread hlast]
    rcases isIdentifier_of_read_name h hc hread with ⟨-, hone⟩ | hidentifier
    · rw [hone] at hchars hafter ⊢
      obtain ⟨-, rfl⟩ := List.cons.inj hchars
      exact h.marked_cons hafter
    · obtain ⟨x, word, hword⟩ :=
        List.exists_cons_of_ne_nil (Identifier.isLetter_of_read_name hc hread).1
      rw [hword] at hchars hafter hidentifier ⊢
      obtain ⟨rfl, hrest⟩ := List.cons.inj hchars
      rw [List.cons_append]
      refine h.marked_cons ?_
      rw [← hrest]
      exact marked_letters hidentifier hafter
  | case4 c rest hc ih =>
    rw [Bool.not_eq_true] at hc
    have hrest := ih (betweenLexemes_symbol hc before rest)
    rw [leadingMark_concat] at hrest
    rw [withMarks_symbol dialect hc]
    exact h.marked_cons hrest

/-- **Normal forms are the texts that are marked by the rule.** The normal form of a text is
the text without its blanks, with a mark of a product at each place at which the rule implies
one, and with nothing else. -/
theorem marked_iff_eq_normalize (dialect : Dialect) (text : String) (t : List Char) :
    Marked (IsProduct dialect) [] (withoutBlanks text.toList) t ↔
      t = (normalize dialect text).toList := by
  have hnormal : Marked (IsProduct dialect) [] (withoutBlanks text.toList)
      (normalize dialect text).toList := by
    rw [normalize, String.toList_ofList]
    exact marked_withMarks (betweenLexemes_start _)
  constructor
  · intro h
    exact h.unique hnormal
  · rintro rfl
    exact hnormal

/-! ## Normal forms of normal forms -/

/-- **A normal form is its own normal form.** -/
theorem normalChars_normalChars (dialect : Dialect) (s : List Char) :
    normalChars dialect (normalChars dialect s) = normalChars dialect s := by
  rw [normalChars_eq dialect (normalChars dialect s), withoutBlanks_normalChars, normalChars_eq,
    withMarks_withMarks]

/-- A normal form evaluates to what its text evaluates to. -/
theorem Evaluation.of_normalize (dialect : Dialect) (bindings : Bindings) (text : String) :
    Evaluation.of dialect bindings (normalize dialect text)
      = Evaluation.of dialect bindings text := by
  unfold Evaluation.of
  rw [normalize, String.toList_ofList, normalChars_normalChars]

/-- **Normal forms are settled.** The normal form of a text is its own normal form. For every
calculator and all bindings it has the outcome of the text, with the same normal form, tree and
value or with the same fault at the same position, and it has the same variables. -/
theorem Calculator.evaluate_normalize (c : Calculator) (bindings : Bindings) (text : String) :
    normalize c.dialect (normalize c.dialect text) = normalize c.dialect text ∧
      c.evaluate bindings (normalize c.dialect text) = c.evaluate bindings text ∧
      c.evaluateConjugate bindings (normalize c.dialect text)
        = c.evaluateConjugate bindings text ∧
      variableNames c.dialect (normalize c.dialect text) = variableNames c.dialect text := by
  have hchars : normalChars c.dialect (normalize c.dialect text).toList
      = normalChars c.dialect text.toList := by
    rw [normalize, String.toList_ofList, normalChars_normalChars]
  have hof := Evaluation.of_normalize c.dialect bindings text
  refine ⟨?_, ?_, ?_, ?_⟩
  · rw [normalize, hchars, normalize]
  · unfold evaluate
    rw [hof]
  · unfold evaluateConjugate
    rw [hof]
  · unfold variableNames
    rw [hchars]

end ComplexFormula
