/-
# Control sequences

A terminal does not show every character that is sent to it. Control characters show nothing,
and the escape character begins a sequence that is carried out instead of being shown: it sets
a colour, or names the window.

* `withoutControls` : what is shown of a text, with its line ends and tabs;
* `isShown_of_mem_shownFrom`, `shownFrom_text` : only characters that can be shown are left, and
  a text of such characters is left as it is.
-/

namespace ComplexFormula

/-! ## Characters -/

/-- The control characters that lay out a text: tab, line feed, form feed, carriage return. -/
def isLayout (c : Char) : Bool :=
  c == '\t' || c == '\n' || c == '\x0c' || c == '\r'

/-- Whether a character is shown or lays out what is shown. -/
def isShown (c : Char) : Bool :=
  isLayout c || (0x20 ≤ c.toNat && c.toNat != 0x7F)

/-- Whether a character lies between two characters. -/
def isWithin (first last c : Char) : Bool :=
  first ≤ c && c ≤ last

/-! ## Sequences -/

/-- What a terminal is in the middle of. -/
inductive ControlState where
  /-- Text that is shown. -/
  | text
  /-- A sequence of which only the escape character has been read. -/
  | escape
  /-- An escape sequence that some more characters lead to its last one. -/
  | escapeIntermediate
  /-- A control sequence: after `[`, up to a letter or the like. -/
  | sequence
  /-- A command to the system around the terminal: after `]`, up to the bell character. -/
  | command
  /-- A device control string, after `P`. -/
  | device
  /-- The parameters of a device control string. -/
  | deviceParameters
  /-- What stands between the parameters of a device control string and its content. -/
  | deviceIntermediate
  /-- A string that is passed over up to its terminator. -/
  | string
  deriving DecidableEq

namespace ControlState

/-- The state after the character behind an escape character. -/
def afterEscape (c : Char) : ControlState :=
  if isWithin ' ' '/' c then escapeIntermediate
  else if c = '[' then sequence
  else if c = ']' then command
  else if c = 'P' then device
  else if c = 'X' || c = '^' || c = '_' then string
  else if isWithin '0' '~' c then text
  else escape

/-- Whether a character ends a string: the octet of the string terminator is one of its
octets. -/
def endsString (c : Char) : Bool :=
  (String.utf8EncodeChar c).contains 0x9C

/-- The state after a character. The escape character always begins a new sequence, and the
characters for cancelling and substitution end every sequence. -/
def next (state : ControlState) (c : Char) : ControlState :=
  if c = '\x1b' then escape
  else if c = '\x18' || c = '\x1a' then text
  else match state with
    | text => text
    | escape => afterEscape c
    | escapeIntermediate => if isWithin '0' '~' c then text else escapeIntermediate
    | sequence => if isWithin '@' '~' c then text else sequence
    | command => if c = '\x07' then text else command
    | device =>
      if isWithin ' ' '/' c then deviceIntermediate
      else if isWithin '0' '?' c then deviceParameters
      else if isWithin '@' '~' c then string
      else device
    | deviceParameters =>
      if isWithin ' ' '/' c then deviceIntermediate
      else if isWithin '<' '~' c then string
      else deviceParameters
    | deviceIntermediate => if isWithin '0' '~' c then string else deviceIntermediate
    | string => if endsString c then text else string

/-- Whether a character is shown in a state. Layout is carried out inside short sequences too,
but not inside commands and strings. -/
def shows (state : ControlState) (c : Char) : Bool :=
  match state with
  | text => isShown c
  | escape | escapeIntermediate | sequence => isLayout c
  | command | device | deviceParameters | deviceIntermediate | string => false

end ControlState

/-! ## What is shown -/

/-- What is shown of a text that begins in a state. Characters behind a shown one are shown
too (`showing`), up to one that is not, and this one continues the sequence that the shown ones
have interrupted. A character beyond ASCII ends an interrupted sequence. -/
def shownFrom (state : ControlState) (showing : Bool) : List Char → List Char
  | [] => []
  | c :: rest =>
    if (showing && isShown c) || state.shows c then
      c :: shownFrom (if c.toNat < 0x80 then state else .text) true rest
    else shownFrom (state.next c) false rest

/-- Whatever a state shows is shown in text too. -/
theorem ControlState.isShown_of_shows {state : ControlState} {c : Char}
    (h : state.shows c = true) : isShown c = true := by
  cases state <;> simp_all [shows, isShown]

/-- Only characters that can be shown are left. -/
theorem isShown_of_mem_shownFrom (state : ControlState) (showing : Bool) (text : List Char) :
    ∀ c ∈ shownFrom state showing text, isShown c = true := by
  induction text generalizing state showing with
  | nil => intro c hc; simp [shownFrom] at hc
  | cons d rest ih =>
    intro c hc
    rw [shownFrom] at hc
    split at hc
    case isTrue h =>
      rcases List.mem_cons.mp hc with rfl | hc
      · rw [Bool.or_eq_true, Bool.and_eq_true] at h
        exact h.elim (fun h => h.2) ControlState.isShown_of_shows
      · exact ih _ _ c hc
    case isFalse => exact ih _ _ c hc

/-- A text of characters that can be shown is shown as it is. -/
theorem shownFrom_text (showing : Bool) (text : List Char)
    (h : ∀ c ∈ text, isShown c = true) : shownFrom .text showing text = text := by
  induction text generalizing showing with
  | nil => rfl
  | cons c rest ih =>
    have hc : isShown c = true := h c List.mem_cons_self
    have hrest := ih true fun d hd => h d (List.mem_cons_of_mem c hd)
    simp [shownFrom, ControlState.shows, hc, hrest]

/-- A text without its control sequences and without control characters other than layout. -/
def withoutControls (text : String) : String :=
  String.ofList (shownFrom .text false text.toList)

end ComplexFormula
