/-
# Primaries

Roots, groups, function calls, names and numerals. The first three open a level of nesting,
and only so many may be open at once.

* `Reader.readPrimary` : reads a primary, given the reader of primaries one level further
  in;
* `Reader.primary` : primaries in which a given number of levels may still be opened.
-/
import ComplexFormula.Formula.Reader.Chain
import ComplexFormula.Formula.Reader.Parenthesis
import ComplexFormula.Lexeme

namespace ComplexFormula.Reader

/-! ## Primaries -/

/-- The reader of primaries one level further in, or the reason why there is none. -/
abbrev Nested := Except SyntaxError Reader

/-- Reads a root after its sign. -/
def readRoot (nested : Nested) (s : List Char) : Reading :=
  match nested with
  | .error reason => .error (.ofReason reason)
  | .ok inner =>
    match (signed inner).read s with
    | .error fault => .error fault
    | .ok (f, rest) => .ok (.unary (.operation .root) f, rest)

/-- Reads a formula in parentheses, after the opening one. -/
def readEnclosed (page : Page) (nested : Nested) (inside : List Char) : Reading :=
  match nested with
  | .error reason => .error (.ofReason reason)
  | .ok inner =>
    match (sum inner).read inside with
    | .error fault => .error fault
    | .ok (f, rest) => close page inside f rest

/-- The literal that a group spells once the marks of implied products are dropped, with its
text. -/
def groupLiteral? (content : List Char) : Option (String × Complex) :=
  let text := String.ofList (content.filter fun c => c != invisibleTimes)
  match Complex.ofLiteral text with
  | .ok value => some (text, value)
  | .error _ => none

/-- Reads a group after its parenthesis: a complex literal, which is one operand, or a
formula. -/
def readGroup (page : Page) (nested : Nested) (inside : List Char) : Reading :=
  match closingIndex? inside with
  | none => .error (.ofReason (.unclosedParenthesis (page.position inside - 1)))
  | some index =>
    match nested with
    | .error reason => .error (.ofReason reason)
    | .ok inner =>
      match groupLiteral? (inside.take index) with
      | some (text, value) => .ok (.leaf (.constant text value), inside.drop (index + 1))
      | none => readEnclosed page (.ok inner) inside

/-- Reads a function call or a name, at a letter. -/
def readIdentifier (page : Page) (nested : Nested) (s : List Char) : Reading :=
  match Identifier.read page.dialect s with
  | (.name letters, rest) => .ok (.leaf (.name (String.ofList letters)), rest)
  | (.call f, rest) =>
    match readEnclosed page nested rest.tail with
    | .error fault => .error fault
    | .ok (argument, rest') => .ok (.unary (.operation (.call f)) argument, rest')

/-- The characters of numerals in formulas. -/
def isNumeralChar (c : Char) : Bool := c.isDigit || c == '.'

/-- Reads the longest run of digits and points as a numeral. -/
def readNumeral (page : Page) (s : List Char) : Reading :=
  let run := s.takeWhile isNumeralChar
  if run.isEmpty then
    .error (.ofReason (.numeralExpected (page.position s) (String.ofList (s.take 1))))
  else
    match Numeral.read? run with
    | some numeral =>
      .ok (.leaf (.constant (String.ofList run) (.ofReal numeral.toFloat)),
        s.dropWhile isNumeralChar)
    | none => .error (.ofReason (.numeralExpected (page.position s) (String.ofList run)))

/-- Reads a primary. -/
def readPrimary (page : Page) (nested : Nested) (s : List Char) : Reading :=
  match s with
  | [] => readNumeral page []
  | c :: rest =>
    if c = rootSign then readRoot nested rest
    else if c = '(' then readGroup page nested rest
    else if isLetter c then readIdentifier page nested (c :: rest)
    else readNumeral page (c :: rest)

/-! ## Progress -/

/-- A root takes its operand. -/
theorem length_readRoot_lt {nested : Nested} {s rest : List Char} {f : Formula}
    (h : readRoot nested s = .ok (f, rest)) : rest.length < s.length := by
  unfold readRoot at h
  split at h
  · simp at h
  · next inner =>
    split at h
    · simp at h
    · next g rest' hread =>
      have := (signed inner).shorter hread
      simp only [Except.ok.injEq, Prod.mk.injEq] at h
      rw [← h.2]
      exact this

/-- A formula in parentheses takes at least its closing one. -/
theorem length_readEnclosed_lt {page : Page} {nested : Nested} {s rest : List Char}
    {f : Formula} (h : readEnclosed page nested s = .ok (f, rest)) :
    rest.length < s.length := by
  unfold readEnclosed at h
  split at h
  · simp at h
  · next inner =>
    split at h
    · simp at h
    · next g rest' hread =>
      have := (sum inner).shorter hread
      have := length_close_lt h
      omega

/-- A group takes at least its closing parenthesis. -/
theorem length_readGroup_lt {page : Page} {nested : Nested} {s rest : List Char}
    {f : Formula} (h : readGroup page nested s = .ok (f, rest)) : rest.length < s.length := by
  unfold readGroup at h
  split at h
  · simp at h
  · next index hindex =>
    have hlt := closingIndexFrom?_lt hindex
    split at h
    · simp at h
    · split at h
      · simp only [Except.ok.injEq, Prod.mk.injEq] at h
        rw [← h.2, List.length_drop]
        omega
      · exact length_readEnclosed_lt h

/-- A numeral takes at least one digit or point. -/
theorem length_readNumeral_lt {page : Page} {s rest : List Char} {f : Formula}
    (h : readNumeral page s = .ok (f, rest)) : rest.length < s.length := by
  unfold readNumeral at h
  simp only at h
  split at h
  · simp at h
  · next hrun =>
    split at h
    · simp only [Except.ok.injEq, Prod.mk.injEq] at h
      have hsplit := congrArg List.length (List.takeWhile_append_dropWhile (p := isNumeralChar)
        (l := s))
      have hpos : 0 < (s.takeWhile isNumeralChar).length :=
        List.length_pos_iff.2 (by simpa using hrun)
      rw [List.length_append] at hsplit
      rw [← h.2]
      omega
    · simp at h

/-- An identifier takes at least its first letter. -/
theorem length_readIdentifier_lt {page : Page} {nested : Nested} {c : Char}
    (hc : isLetter c = true) {s rest : List Char} {f : Formula}
    (h : readIdentifier page nested (c :: s) = .ok (f, rest)) :
    rest.length < (c :: s).length := by
  have hlt := Identifier.length_read_lt page.dialect hc s
  unfold readIdentifier at h
  split at h
  · next letters rest' hread =>
    simp only [Except.ok.injEq, Prod.mk.injEq] at h
    rw [hread] at hlt
    rw [← h.2]
    exact hlt
  · next g rest' hread =>
    rw [hread] at hlt
    split at h
    · simp at h
    · next argument rest'' hargument =>
      have := length_readEnclosed_lt hargument
      simp only [Except.ok.injEq, Prod.mk.injEq] at h
      rw [List.length_tail] at this
      rw [← h.2]
      simp only at hlt
      omega

/-- A primary takes at least one character. -/
theorem length_readPrimary_lt {page : Page} {nested : Nested} {s rest : List Char}
    {f : Formula} (h : readPrimary page nested s = .ok (f, rest)) : rest.length < s.length := by
  unfold readPrimary at h
  split at h
  · exact length_readNumeral_lt h
  · next c tail =>
    split at h
    · have := length_readRoot_lt h
      rw [List.length_cons]
      omega
    · split at h
      · have := length_readGroup_lt h
        rw [List.length_cons]
        omega
      · split at h
        · next hc => exact length_readIdentifier_lt hc h
        · exact length_readNumeral_lt h

/-! ## Nesting -/

/-- The reader of primaries in which `levels` more groups, calls and roots may be opened. -/
def primary (page : Page) : (levels : Nat) → Reader
  | 0 =>
    { read := fun s =>
        readPrimary page (.error (.nestedTooDeep page.dialect.nestingLimit)) s
      shorter := length_readPrimary_lt }
  | levels + 1 =>
    { read := fun s => readPrimary page (.ok (primary page levels)) s
      shorter := length_readPrimary_lt }

end ComplexFormula.Reader
