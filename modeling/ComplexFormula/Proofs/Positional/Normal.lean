/-
# Normal forms by positions

The normal form and the variables of a text, found by walking over the positions of an array
of characters. The walk over the text goes on behind each identifier, and behind the
parenthesis of a call; the walk over the normal form stops at that parenthesis as well. Each
walk also has a form that records where it reads identifiers.

* `readIdentifier_place` : an identifier by positions;
* `normalizeRecorded_place`, `variableNamesRecorded_place` : the walks read the identifiers
  among the lexemes;
* `normalize_eq` : the normal form by positions;
* `variableNames_eq` : the variables by positions.
-/
import ComplexFormula.Normal
import ComplexFormula.Proofs.Identifier
import ComplexFormula.Proofs.Positional.Text

namespace ComplexFormula.Positional

/-! ## Identifiers -/

/-- Reads the identifier at a position, and finds the position behind it. -/
def readIdentifier (dialect : Dialect) (text : List Char) (start : Nat) :
    Option (Identifier × Nat) := do
  let stop ← runEnd isLetter text start
  let word ← slice? text start stop
  let function :=
    if dialect.functions && text[stop]? == some '(' then
      RealFunction.ofName? (String.ofList word)
    else none
  match function with
  | some f => return (.call f, stop)
  | none =>
    if dialect.longNames then return (.name word, stop)
    else
      let c ← text[start]?
      return (.name [c], start + 1)

/-- **An identifier by positions.** -/
theorem readIdentifier_place {dialect : Dialect} {text : List Char} {c : Char} {s : List Char}
    (h : c :: s <:+ text) :
    readIdentifier dialect text (place text (c :: s))
      = some ((Identifier.read dialect (c :: s)).1,
          place text (Identifier.read dialect (c :: s)).2) := by
  have hword : slice? text (place text (c :: s)) (place text ((c :: s).dropWhile isLetter))
      = some ((c :: s).takeWhile isLetter) :=
    slice?_place h List.takeWhile_append_dropWhile
  have hrest : (c :: s).dropWhile isLetter <:+ text := (List.dropWhile_suffix _).trans h
  unfold readIdentifier Identifier.read Identifier.call?
  simp only [runEnd_place isLetter h, hword, getElem?_place hrest, getElem?_place h,
    Option.bind_eq_bind, Option.bind_some, List.head?_cons, place_cons h]
  generalize (if dialect.functions && ((c :: s).dropWhile isLetter).head? == some '(' then
    RealFunction.ofName? (String.ofList ((c :: s).takeWhile isLetter)) else none) = function
  cases function with
  | some f => rfl
  | none =>
    simp only
    split
    · rfl
    · rfl

/-- Behind an identifier there is a rest of the text. -/
theorem suffix_of_read {dialect : Dialect} {text s rest : List Char} {word : Identifier}
    (h : s <:+ text) (hread : Identifier.read dialect s = (word, rest)) : rest <:+ text := by
  have hrest : (Identifier.read dialect s).2 <:+ s := by
    unfold Identifier.read
    simp only
    split
    · exact List.dropWhile_suffix _
    · split
      · exact List.dropWhile_suffix _
      · exact List.drop_suffix 1 s
  rw [hread] at hrest
  exact hrest.trans h

/-- Behind an identifier the text goes on further on. -/
theorem place_lt_of_read {dialect : Dialect} {text s rest : List Char} {c : Char}
    {word : Identifier} (h : c :: s <:+ text) (hc : isLetter c = true)
    (hread : Identifier.read dialect (c :: s) = (word, rest)) :
    place text (c :: s) < place text rest := by
  have hshorter := Identifier.length_read_lt dialect hc s
  rw [hread] at hshorter
  exact place_lt_place h hshorter

/-- An identifier where it was read: from the first position to the one behind it. -/
structure Occurrence where
  start : Nat
  word : Identifier
  stop : Nat
  deriving DecidableEq

/-- The identifier that a lexeme at a position is. The parenthesis of a call is not part of it. -/
def occurrence? (start : Nat) : Lexeme → Option Occurrence
  | .call f => some ⟨start, .call f, start + f.name.toList.length⟩
  | .name letters => some ⟨start, .name letters, start + letters.length⟩
  | .symbol _ => none

/-- The identifiers among lexemes that stand in a row from a position on. -/
def occurrences (start : Nat) : List Lexeme → List Occurrence
  | [] => []
  | x :: xs => (occurrence? start x).toList ++ occurrences (start + x.chars.length) xs

/-- Where a call is read, and where the lexemes go on behind its parenthesis. -/
theorem occurrences_of_call {text s inside : List Char} {f : RealFunction}
    (h : s <:+ text) (hname : f.name.toList ++ '(' :: inside = s) (xs : List Lexeme) :
    occurrences (place text s) (.call f :: xs)
      = ⟨place text s, .call f, place text ('(' :: inside)⟩ ::
          occurrences (place text inside) xs := by
  subst hname
  have hopen : '(' :: inside <:+ text := (List.suffix_append _ _).trans h
  rw [occurrences, Lexeme.chars, List.length_append, List.length_singleton, ← Nat.add_assoc,
    place_append_add h, place_cons hopen, occurrence?, place_append_add h]
  rfl

/-- Where a name is read, and where the lexemes go on behind it. -/
theorem occurrences_of_name {text s rest letters : List Char} (h : s <:+ text)
    (hletters : letters ++ rest = s) (xs : List Lexeme) :
    occurrences (place text s) (.name letters :: xs)
      = ⟨place text s, .name letters, place text rest⟩ :: occurrences (place text rest) xs := by
  subst hletters
  rw [occurrences, Lexeme.chars, place_append_add h, occurrence?, place_append_add h]
  rfl

/-- No identifier is read at a symbol. -/
theorem occurrences_of_symbol {text s : List Char} {c : Char} (h : c :: s <:+ text)
    (xs : List Lexeme) :
    occurrences (place text (c :: s)) (.symbol c :: xs) = occurrences (place text s) xs := by
  rw [occurrences, Lexeme.chars, List.length_singleton, place_cons h]
  rfl

/-! ## The normal form -/

/-- The mark before a character, if the one before it implies a product. -/
def markAfter (dialect : Dialect) (previous : Option Char) (next : Char) : List Char :=
  match previous with
  | some previous =>
    if dialect.impliedProducts && impliesProduct previous next then [invisibleTimes] else []
  | none => []

/-- Goes on with a normal form at a position, behind a character. An identifier has to end
further on. -/
def normalizeFrom (dialect : Dialect) (text : List Char) (position : Nat)
    (previous : Option Char) (written : List Char) : Option (List Char) :=
  if position < text.length then do
    let c ← text[position]?
    if isLetter c then
      let (word, stop) ← readIdentifier dialect text position
      let others ← slice? text (position + 1) stop
      let last ← text[← stop.ppred]?
      let written := written ++ markAfter dialect previous c ++ c :: others
      if position < stop then
        match word with
        | .call _ => normalizeFrom dialect text (stop + 1) (some '(') (written ++ ['('])
        | .name _ => normalizeFrom dialect text stop (some last) written
      else none
    else
      normalizeFrom dialect text (position + 1) (some c)
        (written ++ markAfter dialect previous c ++ [c])
  else some written
termination_by text.length - position

/-- Goes on with a normal form, and with a list of the identifiers that are read. -/
def normalizeRecorded (dialect : Dialect) (text : List Char) (position : Nat)
    (previous : Option Char) (written : List Char) (found : List Occurrence) :
    Option (List Char × List Occurrence) :=
  if position < text.length then do
    let c ← text[position]?
    if isLetter c then
      let (word, stop) ← readIdentifier dialect text position
      let others ← slice? text (position + 1) stop
      let last ← text[← stop.ppred]?
      let written := written ++ markAfter dialect previous c ++ c :: others
      let found := found ++ [⟨position, word, stop⟩]
      if position < stop then
        match word with
        | .call _ =>
          normalizeRecorded dialect text (stop + 1) (some '(') (written ++ ['(']) found
        | .name _ => normalizeRecorded dialect text stop (some last) written found
      else none
    else
      normalizeRecorded dialect text (position + 1) (some c)
        (written ++ markAfter dialect previous c ++ [c]) found
  else some (written, found)
termination_by text.length - position

/-- The list does not change the normal form. -/
theorem map_fst_normalizeRecorded (dialect : Dialect) (text : List Char) (position : Nat)
    (previous : Option Char) (written : List Char) (found : List Occurrence) :
    (normalizeRecorded dialect text position previous written found).map Prod.fst
      = normalizeFrom dialect text position previous written := by
  fun_induction normalizeRecorded dialect text position previous written found with
  | case1 position previous written found hlt ihcall ihname ihsymbol =>
    rw [normalizeFrom, if_pos hlt]
    simp only [Option.bind_eq_bind, Option.map_bind]
    refine Option.bind_congr fun c _ => ?_
    rw [Function.comp_apply]
    split
    · simp only [Option.map_bind]
      refine Option.bind_congr fun result _ => ?_
      obtain ⟨word, stop⟩ := result
      simp only [Function.comp_apply, Option.map_bind]
      refine Option.bind_congr fun others _ => Option.bind_congr fun before _ =>
        Option.bind_congr fun last _ => ?_
      split
      · next hfurther =>
        cases word with
        | call f => exact ihcall c (.call f) stop others hfurther
        | name letters => exact ihname c (.name letters) stop others last hfurther
      · rfl
    · exact ihsymbol c
  | case2 position previous written found hlt =>
    rw [normalizeFrom, if_neg hlt, Option.map_some]

/-- The text of some lexemes behind a character. -/
def spellAfter (dialect : Dialect) (previous : Option Char) : List Lexeme → List Char
  | [] => []
  | x :: xs =>
    (x.chars.head?.map (markAfter dialect previous)).getD [] ++ x.chars
      ++ spellAfter dialect x.chars.getLast? xs

/-- Behind its first lexeme a text is spelled as behind the last character of it. -/
theorem spell_cons (dialect : Dialect) (x : Lexeme) (xs : List Lexeme) :
    spell dialect (x :: xs) = x.chars ++ spellAfter dialect x.chars.getLast? xs := by
  induction xs generalizing x with
  | nil => simp [spell, spellAfter]
  | cons y xs ih =>
    have hmark : markBetween dialect x y
        = (y.chars.head?.map (markAfter dialect x.chars.getLast?)).getD [] := by
      unfold markBetween markAfter
      cases x.chars.getLast? <;> cases y.chars.head? <;> rfl
    rw [spell, ih, spellAfter, hmark, List.append_assoc, List.append_assoc]

/-- At the start of a text nothing stands before. -/
theorem spellAfter_none (dialect : Dialect) (xs : List Lexeme) :
    spellAfter dialect none xs = spell dialect xs := by
  cases xs with
  | nil => rfl
  | cons x xs =>
    rw [spell_cons, spellAfter]
    cases x.chars.head? <;> rfl

/-- Behind the letters of an identifier stand all but the first of them, and the last one. -/
theorem exists_last_of_letters {text s rest letters : List Char} {c : Char}
    (h : c :: s <:+ text) (hletters : letters ++ rest = c :: s) (hne : letters ≠ []) :
    ∃ others last, letters = c :: others ∧ letters.getLast? = some last ∧
      slice? text (place text (c :: s) + 1) (place text rest) = some others ∧
      (place text rest).ppred = some (place text (last :: rest)) ∧
      text[place text (last :: rest)]? = some last := by
  obtain ⟨others, rfl⟩ : ∃ others, letters = c :: others := by
    cases letters with
    | nil => exact absurd rfl hne
    | cons x others => exact ⟨others, by rw [(List.cons.inj hletters).1]⟩
  obtain rfl : others ++ rest = s := (List.cons.inj hletters).2
  obtain ⟨front, last, hlast⟩ : ∃ front last, c :: others = front ++ [last] :=
    ⟨_, _, (List.dropLast_concat_getLast hne).symm⟩
  have hbefore : last :: rest <:+ text := by
    refine List.IsSuffix.trans ⟨front, ?_⟩ h
    rw [← List.cons_append, hlast, List.append_assoc, List.singleton_append]
  refine ⟨others, last, rfl, ?_, ?_, ppred_place hbefore, getElem?_place hbefore⟩
  · rw [hlast, List.getLast?_concat]
  · rw [place_cons h]
    exact slice?_place ((List.suffix_cons c _).trans h) rfl

/-- **The normal form by positions**, from any position on, and the identifiers that are read
on the way. -/
theorem normalizeRecorded_place (dialect : Dialect) {text s : List Char} (h : s <:+ text)
    (previous : Option Char) (written : List Char) (found : List Occurrence) :
    normalizeRecorded dialect text (place text s) previous written found
      = some (written ++ spellAfter dialect previous (lexemes dialect s),
          found ++ occurrences (place text s) (lexemes dialect s)) := by
  -- the walk takes one lexeme after the other
  fun_induction lexemes dialect s generalizing previous written found with
  | case1 =>
    rw [normalizeRecorded, place_nil, if_neg (Nat.lt_irrefl _), spellAfter, occurrences,
      List.append_nil, List.append_nil]
  | case2 c rest hc f after hread ih =>
    obtain ⟨inside, rfl⟩ := Identifier.exists_of_read_call hread
    have hchars := Identifier.append_of_read_call hread
    rw [List.tail_cons] at ih ⊢
    have hafter := suffix_of_read h hread
    have hfurther := place_lt_of_read h hc hread
    obtain ⟨others, last, hletters, -, hothers, hppred, hlast⟩ :=
      exists_last_of_letters h hchars f.name_ne_nil
    rw [normalizeRecorded, if_pos (place_lt h), getElem?_place h]
    simp only [List.head?_cons, Option.bind_eq_bind, Option.bind_some, hc, ↓reduceIte,
      readIdentifier_place h, hread, hothers, hppred, hlast, if_pos hfurther]
    have hgetLast : (Lexeme.call f).chars.getLast? = some '(' := by
      rw [Lexeme.chars, List.getLast?_concat]
    rw [place_cons hafter, ih ((List.suffix_cons _ _).trans hafter), spellAfter, hgetLast,
      occurrences_of_call h hchars]
    simp [Lexeme.chars, hletters]
  | case3 c rest hc letters after hread ih =>
    have hchars := Identifier.append_of_read_name hread
    have hafter := suffix_of_read h hread
    have hfurther := place_lt_of_read h hc hread
    obtain ⟨others, last, hletters, hgetLast, hothers, hppred, hlast⟩ :=
      exists_last_of_letters h hchars (Identifier.isLetter_of_read_name hc hread).1
    rw [normalizeRecorded, if_pos (place_lt h), getElem?_place h]
    simp only [List.head?_cons, Option.bind_eq_bind, Option.bind_some, hc, ↓reduceIte,
      readIdentifier_place h, hread, hothers, hppred, hlast, if_pos hfurther]
    rw [ih hafter, spellAfter, occurrences_of_name h hchars, Lexeme.chars, hgetLast, hletters]
    simp
  | case4 c rest hc ih =>
    rw [normalizeRecorded, if_pos (place_lt h), getElem?_place h]
    simp only [List.head?_cons, Option.bind_eq_bind, Option.bind_some, hc]
    rw [if_neg Bool.false_ne_true, place_cons h, ih ((List.suffix_cons c rest).trans h),
      occurrences_of_symbol h]
    simp [spellAfter, Lexeme.chars]

/-- The normal form by positions, from any position on. -/
theorem normalizeFrom_place (dialect : Dialect) {text s : List Char} (h : s <:+ text)
    (previous : Option Char) (written : List Char) :
    normalizeFrom dialect text (place text s) previous written
      = some (written ++ spellAfter dialect previous (lexemes dialect s)) := by
  rw [← map_fst_normalizeRecorded dialect text _ previous written [],
    normalizeRecorded_place dialect h, Option.map_some]

/-- The normal form of a text. -/
def normalize (dialect : Dialect) (text : String) : Option String := do
  let written ← normalizeFrom dialect (withoutBlanks text.toList) 0 none []
  return String.ofList written

/-- **The normal form by positions.** -/
theorem normalize_eq (dialect : Dialect) (text : String) :
    normalize dialect text = some (ComplexFormula.normalize dialect text) := by
  have hwhole := normalizeFrom_place dialect
    (List.suffix_refl (withoutBlanks text.toList)) none []
  rw [place_self, List.nil_append, spellAfter_none] at hwhole
  rw [normalize, hwhole]
  rfl

/-! ## Variables -/

/-- Adds a name to a list, unless it is reserved or already there. -/
def addName (names : List String) (name : String) : List String :=
  if isReserved name || names.contains name then names else names ++ [name]

/-- Goes on collecting the variables at a position. An identifier has to end further on. -/
def variableNamesFrom (dialect : Dialect) (text : List Char) (position : Nat)
    (names : List String) : Option (List String) :=
  if position < text.length then do
    let c ← text[position]?
    if isLetter c then
      let (word, stop) ← readIdentifier dialect text position
      if position < stop then
        match word with
        | .name letters =>
          variableNamesFrom dialect text stop (addName names (String.ofList letters))
        | .call _ => variableNamesFrom dialect text stop names
      else none
    else variableNamesFrom dialect text (position + 1) names
  else some names
termination_by text.length - position

/-- Goes on collecting the variables, and lists the identifiers that are read. -/
def variableNamesRecorded (dialect : Dialect) (text : List Char) (position : Nat)
    (names : List String) (found : List Occurrence) : Option (List String × List Occurrence) :=
  if position < text.length then do
    let c ← text[position]?
    if isLetter c then
      let (word, stop) ← readIdentifier dialect text position
      let found := found ++ [⟨position, word, stop⟩]
      if position < stop then
        match word with
        | .name letters =>
          variableNamesRecorded dialect text stop (addName names (String.ofList letters)) found
        | .call _ => variableNamesRecorded dialect text stop names found
      else none
    else variableNamesRecorded dialect text (position + 1) names found
  else some (names, found)
termination_by text.length - position

/-- The list does not change the variables. -/
theorem map_fst_variableNamesRecorded (dialect : Dialect) (text : List Char) (position : Nat)
    (names : List String) (found : List Occurrence) :
    (variableNamesRecorded dialect text position names found).map Prod.fst
      = variableNamesFrom dialect text position names := by
  fun_induction variableNamesRecorded dialect text position names found with
  | case1 position names found hlt ihname ihcall ihsymbol =>
    rw [variableNamesFrom, if_pos hlt]
    simp only [Option.bind_eq_bind, Option.map_bind]
    refine Option.bind_congr fun c _ => ?_
    rw [Function.comp_apply]
    split
    · simp only [Option.map_bind]
      refine Option.bind_congr fun result _ => ?_
      obtain ⟨word, stop⟩ := result
      simp only [Function.comp_apply]
      split
      · next hfurther =>
        cases word with
        | call f => exact ihcall (.call f) stop hfurther
        | name letters => exact ihname (.name letters) stop hfurther letters
      · rfl
    · exact ihsymbol
  | case2 position names found hlt =>
    rw [variableNamesFrom, if_neg hlt, Option.map_some]

/-- The variables of a text. -/
def variableNames (dialect : Dialect) (text : String) : Option (List String) := do
  variableNamesFrom dialect (← normalize dialect text).toList 0 []

/-- The walk adds the names of the lexemes, one after the other, and reads the identifiers among
them. -/
theorem variableNamesRecorded_place (dialect : Dialect) {text s : List Char} (h : s <:+ text)
    (names : List String) (found : List Occurrence) :
    variableNamesRecorded dialect text (place text s) names found
      = some (((lexemes dialect s).filterMap Lexeme.named?).foldl addName names,
          found ++ occurrences (place text s) (lexemes dialect s)) := by
  fun_induction lexemes dialect s generalizing names found with
  | case1 =>
    rw [variableNamesRecorded, place_nil, if_neg (Nat.lt_irrefl _), occurrences, List.append_nil]
    rfl
  | case2 c rest hc f after hread ih =>
    obtain ⟨inside, rfl⟩ := Identifier.exists_of_read_call hread
    rw [List.tail_cons] at ih ⊢
    have hafter := suffix_of_read h hread
    have hfurther := place_lt_of_read h hc hread
    rw [variableNamesRecorded, if_pos (place_lt h), getElem?_place h]
    simp only [List.head?_cons, Option.bind_eq_bind, Option.bind_some, hc, ↓reduceIte,
      readIdentifier_place h, hread, if_pos hfurther]
    -- the parenthesis of the call is passed as any other character
    rw [variableNamesRecorded, if_pos (place_lt hafter), getElem?_place hafter]
    simp only [List.head?_cons, Option.bind_eq_bind, Option.bind_some]
    rw [if_neg (by decide), place_cons hafter, ih ((List.suffix_cons _ _).trans hafter),
      occurrences_of_call h (Identifier.append_of_read_call hread), List.append_assoc]
    rfl
  | case3 c rest hc letters after hread ih =>
    have hafter := suffix_of_read h hread
    have hfurther := place_lt_of_read h hc hread
    rw [variableNamesRecorded, if_pos (place_lt h), getElem?_place h]
    simp only [List.head?_cons, Option.bind_eq_bind, Option.bind_some, hc, ↓reduceIte,
      readIdentifier_place h, hread, if_pos hfurther]
    rw [ih hafter, occurrences_of_name h (Identifier.append_of_read_name hread),
      List.append_assoc]
    rfl
  | case4 c rest hc ih =>
    rw [variableNamesRecorded, if_pos (place_lt h), getElem?_place h]
    simp only [List.head?_cons, Option.bind_eq_bind, Option.bind_some, hc]
    rw [if_neg Bool.false_ne_true, place_cons h, ih ((List.suffix_cons c rest).trans h),
      occurrences_of_symbol h]
    rfl

/-- The walk adds the names of the lexemes, one after the other. -/
theorem variableNamesFrom_place (dialect : Dialect) {text s : List Char} (h : s <:+ text)
    (names : List String) :
    variableNamesFrom dialect text (place text s) names
      = some (((lexemes dialect s).filterMap Lexeme.named?).foldl addName names) := by
  rw [← map_fst_variableNamesRecorded dialect text _ names [],
    variableNamesRecorded_place dialect h, Option.map_some]

/-- Names that are added one after the other occur once, in order of first appearance. -/
theorem foldl_addName (names seen : List String) :
    names.foldl addName seen.eraseDups
      = (seen ++ names.filter fun name => !isReserved name).eraseDups := by
  induction names generalizing seen with
  | nil => simp
  | cons name names ih =>
    have hadd : addName seen.eraseDups name
        = (if isReserved name then seen else seen ++ [name]).eraseDups := by
      cases hreserved : isReserved name with
      | true => simp [addName, hreserved]
      | false =>
        by_cases hmem : name ∈ seen
        · simp [addName, hreserved, hmem, List.eraseDups_append, List.removeAll]
        · simp [addName, hreserved, hmem, List.eraseDups_append, List.removeAll,
            List.eraseDups_cons]
    rw [List.foldl_cons, hadd, ih]
    cases hreserved : isReserved name with
    | true => simp [hreserved]
    | false => simp [hreserved]

/-- **The variables by positions.** -/
theorem variableNames_eq (dialect : Dialect) (text : String) :
    variableNames dialect text = some (ComplexFormula.variableNames dialect text) := by
  rw [variableNames, normalize_eq]
  simp only [Option.bind_eq_bind, Option.bind_some, ComplexFormula.normalize,
    String.toList_ofList]
  have hwhole := variableNamesFrom_place dialect
    (List.suffix_refl (normalChars dialect text.toList)) []
  rw [place_self] at hwhole
  have hfold := foldl_addName ((lexemes dialect (normalChars dialect text.toList)).filterMap
    Lexeme.named?) []
  rw [List.eraseDups_nil, List.nil_append] at hfold
  rw [hwhole, hfold]
  rfl

end ComplexFormula.Positional
