/-
# Literals by bytes

A literal is held as the bytes of its characters in UTF-8, and its parts are found by the
offsets of bytes. A text may be cut only between two characters. The sign between the two
parts and the imaginary unit at the end are ASCII, so their bytes occur in no other
character, and the cuts stand beside them.

* `cutBesideAscii?` : a cut at an offset of bytes, beside an ASCII character;
* `splitIndex_bytes` : the offset of the sign between the two parts;
* `ofLiteral_eq` : a literal by bytes.
-/
import ComplexFormula.Proofs.Literal.Grammar
import ComplexFormula.Proofs.Positional.Text

namespace ComplexFormula.Positional

/-! ## Bytes of characters -/

/-- The ASCII characters. -/
def isAscii (c : Char) : Bool := c.toNat < 128

/-- The bytes of a text in UTF-8. -/
def bytes (s : List Char) : List UInt8 := s.flatMap String.utf8EncodeChar

/-- The bytes of a first character come first. -/
theorem bytes_cons (c : Char) (s : List Char) :
    bytes (c :: s) = String.utf8EncodeChar c ++ bytes s := List.flatMap_cons

/-- The bytes of two texts stand one after the other. -/
theorem bytes_append (s t : List Char) : bytes (s ++ t) = bytes s ++ bytes t :=
  List.flatMap_append

/-- An ASCII character is one byte. -/
theorem utf8EncodeChar_of_isAscii {c : Char} (h : isAscii c = true) :
    String.utf8EncodeChar c = [c.toUInt8] := by
  have hc : c.toNat < 128 := of_decide_eq_true h
  have hsize : c.utf8Size = 1 := by
    rw [Char.utf8Size_eq_one_iff, UInt32.le_iff_toNat_le]
    exact Nat.le_of_lt_succ hc
  exact String.utf8EncodeChar_eq_singleton hsize

/-- The byte of an ASCII character is its code. -/
theorem toNat_toUInt8 {c : Char} (h : isAscii c = true) : c.toUInt8.toNat = c.toNat := by
  have hc : c.toNat < 128 := of_decide_eq_true h
  show c.val.toUInt8.toNat = c.toNat
  rw [UInt32.toNat_toUInt8]
  exact Nat.mod_eq_of_lt (Nat.lt_trans hc (by decide))

/-- The bytes of any other character are above those of ASCII. -/
theorem le_of_mem_utf8EncodeChar {c : Char} (h : isAscii c = false) :
    ∀ b ∈ String.utf8EncodeChar c, 128 ≤ b.toNat := by
  have hc : ¬ c.toNat ≤ 127 := by
    have : ¬ c.toNat < 128 := of_decide_eq_false h
    omega
  -- each byte has a mark of at least 128, and too few bits beside it to reach 256
  have hcodes : String.utf8EncodeChar c =
      if c.toNat ≤ 127 then [UInt8.ofNat c.toNat]
      else if c.toNat ≤ 2047 then
        [UInt8.ofNat (c.toNat / 64 % 32 + 192), UInt8.ofNat (c.toNat % 64 + 128)]
      else if c.toNat ≤ 65535 then
        [UInt8.ofNat (c.toNat / 4096 % 16 + 224), UInt8.ofNat (c.toNat / 64 % 64 + 128),
          UInt8.ofNat (c.toNat % 64 + 128)]
      else
        [UInt8.ofNat (c.toNat / 262144 % 8 + 240), UInt8.ofNat (c.toNat / 4096 % 64 + 128),
          UInt8.ofNat (c.toNat / 64 % 64 + 128), UInt8.ofNat (c.toNat % 64 + 128)] := rfl
  intro b hb
  rw [hcodes, if_neg hc] at hb
  split at hb
  · simp only [List.mem_cons, List.not_mem_nil, or_false] at hb
    rcases hb with rfl | rfl <;> rw [UInt8.toNat_ofNat'] <;> omega
  · split at hb
    · simp only [List.mem_cons, List.not_mem_nil, or_false] at hb
      rcases hb with rfl | rfl | rfl <;> rw [UInt8.toNat_ofNat'] <;> omega
    · simp only [List.mem_cons, List.not_mem_nil, or_false] at hb
      rcases hb with rfl | rfl | rfl | rfl <;> rw [UInt8.toNat_ofNat'] <;> omega

/-- The byte of an ASCII character is found in that character only. -/
theorem eq_toUInt8_iff {c d : Char} (hc : isAscii c = true) {b : UInt8}
    (hb : b ∈ String.utf8EncodeChar d) : b = c.toUInt8 ↔ d = c := by
  constructor
  · rintro rfl
    cases hd : isAscii d with
    | true =>
      rw [utf8EncodeChar_of_isAscii hd, List.mem_singleton] at hb
      refine Char.toNat_inj.1 ?_
      rw [← toNat_toUInt8 hc, ← toNat_toUInt8 hd, hb]
    | false =>
      have hhigh := le_of_mem_utf8EncodeChar hd _ hb
      have hlow : c.toNat < 128 := of_decide_eq_true hc
      rw [toNat_toUInt8 hc] at hhigh
      omega
  · rintro rfl
    rw [utf8EncodeChar_of_isAscii hc] at hb
    exact List.mem_singleton.1 hb

/-! ## Cuts -/

/-- Cuts a text at an offset of bytes, which has to be the end of a character. -/
def cutAt? : List Char → Nat → Option (List Char × List Char)
  | s, 0 => some ([], s)
  | [], _ + 1 => none
  | c :: s, n + 1 =>
    if c.utf8Size ≤ n + 1 then
      (cutAt? s (n + 1 - c.utf8Size)).map fun (front, back) => (c :: front, back)
    else none

/-- Cuts a text at an offset of bytes, which has to be next to an ASCII character. -/
def cutBesideAscii? (s : List Char) (offset : Nat) : Option (List Char × List Char) := do
  let (front, back) ← cutAt? s offset
  guard (front.getLast?.any isAscii || back.head?.any isAscii)
  return (front, back)

/-- A text may be cut behind any of its characters. -/
theorem cutAt?_append (front back : List Char) :
    cutAt? (front ++ back) (bytes front).length = some (front, back) := by
  induction front with
  | nil => rw [List.nil_append, bytes, List.flatMap_nil, List.length_nil, cutAt?]
  | cons c front ih =>
    have hlength : (bytes (c :: front)).length = c.utf8Size + (bytes front).length := by
      rw [bytes_cons, List.length_append, String.length_utf8EncodeChar]
    obtain ⟨n, hn⟩ : ∃ n, (bytes (c :: front)).length = n + 1 :=
      ⟨_, by rw [hlength, ← Nat.succ_pred_eq_of_pos c.utf8Size_pos, Nat.succ_add]⟩
    rw [List.cons_append, hn, cutAt?, ← hn, hlength, if_pos (Nat.le_add_right _ _),
      Nat.add_sub_cancel_left, ih]
    rfl

example : cutAt? ['é', 'i'] 2 = some (['é'], ['i']) := by decide

example : cutAt? ['é', 'i'] 1 = none := by decide

/-- A text may be cut before an ASCII character. -/
theorem cutBesideAscii?_append {c : Char} (hc : isAscii c = true) (front back : List Char) :
    cutBesideAscii? (front ++ c :: back) (bytes front).length = some (front, c :: back) := by
  rw [cutBesideAscii?, cutAt?_append]
  simp [hc]

/-! ## The sign between the parts -/

/-- Whether a byte is that of a sign. -/
def isSignByte (b : UInt8) : Bool := b == '+'.toUInt8 || b == '-'.toUInt8

/-- Whether a byte is that of an exponent mark. -/
def isExponentByte (b : UInt8) : Bool := b == 'e'.toUInt8 || b == 'E'.toUInt8

/-- The first offset, from a given one on, of a sign that follows no exponent mark. -/
def splitIndexFrom (text : List UInt8) (index : Nat) : Option (Option Nat) :=
  if index < text.length then do
    let b ← text[index]?
    if isSignByte b then
      let before ← text[← index.ppred]?
      if isExponentByte before then splitIndexFrom text (index + 1) else return some index
    else splitIndexFrom text (index + 1)
  else some none
termination_by text.length - index

/-- A byte of a sign is found in signs only. -/
theorem isSignByte_eq {c : Char} {b : UInt8} (hb : b ∈ String.utf8EncodeChar c) :
    isSignByte b = (c == '+' || c == '-') := by
  rw [isSignByte, Bool.eq_iff_iff, Bool.or_eq_true, Bool.or_eq_true, beq_iff_eq, beq_iff_eq,
    beq_iff_eq, beq_iff_eq, eq_toUInt8_iff (by decide) hb, eq_toUInt8_iff (by decide) hb]

/-- A byte of an exponent mark is found in exponent marks only. -/
theorem isExponentByte_eq {c : Char} {b : UInt8} (hb : b ∈ String.utf8EncodeChar c) :
    isExponentByte b = Complex.isExponentMark c := by
  rw [isExponentByte, Complex.isExponentMark, Bool.eq_iff_iff, Bool.or_eq_true,
    Bool.or_eq_true, beq_iff_eq, beq_iff_eq, beq_iff_eq, beq_iff_eq,
    eq_toUInt8_iff (by decide) hb, eq_toUInt8_iff (by decide) hb]

/-- Only the first byte of a character can be that of a sign. -/
theorem isSignByte_of_mem_tail {c : Char} {b : UInt8} {others : List UInt8}
    (h : String.utf8EncodeChar c = b :: others) : ∀ x ∈ others, isSignByte x = false := by
  intro x hx
  cases hascii : isAscii c with
  | true =>
    rw [utf8EncodeChar_of_isAscii hascii] at h
    rw [← (List.cons.inj h).2] at hx
    exact absurd hx List.not_mem_nil
  | false =>
    rw [isSignByte_eq (c := c) (by rw [h]; exact List.mem_cons_of_mem b hx)]
    rw [Bool.or_eq_false_iff, beq_eq_false_iff_ne, beq_eq_false_iff_ne]
    constructor
    · rintro rfl
      exact absurd hascii (by decide)
    · rintro rfl
      exact absurd hascii (by decide)

/-- Bytes that are no signs are passed. -/
theorem splitIndexFrom_skip {text rest others : List UInt8} (h : others ++ rest <:+ text)
    (hothers : ∀ x ∈ others, isSignByte x = false) :
    splitIndexFrom text (place text (others ++ rest)) = splitIndexFrom text (place text rest) := by
  induction others with
  | nil => rfl
  | cons b others ih =>
    rw [List.cons_append] at h ⊢
    rw [splitIndexFrom, if_pos (place_lt h), getElem?_place h]
    simp only [List.head?_cons, Option.bind_eq_bind, Option.bind_some,
      hothers b List.mem_cons_self]
    rw [if_neg Bool.false_ne_true, place_cons h]
    exact ih ((List.suffix_cons b _).trans h) fun x hx => hothers x (List.mem_cons_of_mem b hx)

/-- From the second byte of a character on, the search goes to the next character. -/
theorem splitIndexFrom_behind {text : List UInt8} {c : Char} {s : List Char}
    (h : bytes (c :: s) <:+ text) :
    splitIndexFrom text (place text (bytes (c :: s)) + 1)
      = splitIndexFrom text (place text (bytes s)) := by
  obtain ⟨b, others, hcode⟩ :=
    List.exists_cons_of_ne_nil (String.utf8EncodeChar_ne_nil (c := c))
  rw [bytes_cons, hcode, List.cons_append] at h ⊢
  rw [place_cons h]
  exact splitIndexFrom_skip ((List.suffix_cons b _).trans h) (isSignByte_of_mem_tail hcode)

/-- Before the bytes of a text stands the last byte of the character before it. -/
theorem exists_last_byte {text : List UInt8} {c : Char} {s : List Char}
    (h : bytes (c :: s) <:+ text) :
    ∃ last ∈ String.utf8EncodeChar c,
      (place text (bytes s)).ppred = some (place text (last :: bytes s)) ∧
      text[place text (last :: bytes s)]? = some last := by
  obtain ⟨front, last, hcode⟩ : ∃ front last, String.utf8EncodeChar c = front ++ [last] :=
    ⟨_, _, (List.dropLast_concat_getLast String.utf8EncodeChar_ne_nil).symm⟩
  have hlast : last :: bytes s <:+ text := by
    refine List.IsSuffix.trans ⟨front, ?_⟩ h
    rw [bytes_cons, hcode, List.append_assoc, List.singleton_append]
  exact ⟨last, by simp [hcode], ppred_place hlast, getElem?_place hlast⟩

/-- One step of the search, at a character with another one before it. -/
theorem splitIndexFrom_step {text : List UInt8} {c d : Char} {s : List Char}
    (h : bytes (c :: d :: s) <:+ text) :
    splitIndexFrom text (place text (bytes (d :: s)))
      = if (d == '+' || d == '-') && !Complex.isExponentMark c then
          some (some (place text (bytes (d :: s))))
        else splitIndexFrom text (place text (bytes (d :: s)) + 1) := by
  have hd : bytes (d :: s) <:+ text := by
    refine List.IsSuffix.trans ?_ h
    rw [bytes_cons c]
    exact List.suffix_append _ _
  obtain ⟨last, hlast, hppred, hget⟩ := exists_last_byte h
  obtain ⟨b, others, hcode⟩ :=
    List.exists_cons_of_ne_nil (String.utf8EncodeChar_ne_nil (c := d))
  have hb : b ∈ String.utf8EncodeChar d := by
    rw [hcode]
    exact List.mem_cons_self
  have hhead : (bytes (d :: s)).head? = some b := by
    rw [bytes_cons, hcode]
    rfl
  have hlt : place text (bytes (d :: s)) < text.length := by
    rw [bytes_cons, hcode] at hd ⊢
    exact place_lt hd
  rw [splitIndexFrom, if_pos hlt, getElem?_place hd, hhead]
  simp only [hppred, hget, Option.bind_eq_bind, Option.bind_some, isSignByte_eq hb,
    isExponentByte_eq hlast]
  cases d == '+' || d == '-' <;> cases Complex.isExponentMark c <;> rfl

/-- The search goes on behind a character as the cut of the text does. -/
theorem splitIndexFrom_bytes {text : List UInt8} {c : Char} {s : List Char}
    (h : bytes (c :: s) <:+ text) :
    splitIndexFrom text (place text (bytes (c :: s)) + 1)
      = some ((Complex.splitAfter? c s).map fun parts => place text (bytes parts.2)) := by
  induction s generalizing c with
  | nil =>
    rw [splitIndexFrom_behind h, splitIndexFrom, bytes, List.flatMap_nil, place_nil,
      if_neg (Nat.lt_irrefl _)]
    rfl
  | cons d s ih =>
    have hd : bytes (d :: s) <:+ text := by
      refine List.IsSuffix.trans ?_ h
      rw [bytes_cons c]
      exact List.suffix_append _ _
    rw [splitIndexFrom_behind h, splitIndexFrom_step h, ih hd, Complex.splitAfter?]
    split
    · rfl
    · rw [Option.map_map]
      rfl

/-- **The offset of the sign between the parts** is where the parts are cut. -/
theorem splitIndex_bytes (s : List Char) :
    splitIndexFrom (bytes s) 1
      = some ((Complex.splitParts? s).map fun parts => (bytes parts.1).length) := by
  cases s with
  | nil =>
    rw [splitIndexFrom, if_neg (by decide)]
    rfl
  | cons c s =>
    have hsearch := splitIndexFrom_bytes (List.suffix_refl (bytes (c :: s)))
    rw [place_self] at hsearch
    rw [hsearch, Complex.splitParts?, Option.map_map]
    congr 1
    cases hsplit : Complex.splitAfter? c s with
    | none => rfl
    | some parts =>
      have happend : parts.1 ++ parts.2 = s := (Complex.splitAfter?_eq_some hsplit).1
      simp only [Option.map_some, Function.comp]
      rw [← happend, ← List.cons_append, bytes_append, place_append]

/-! ## The whole literal -/

/-- Reads an imaginary part, which ends in the imaginary unit. -/
def readImaginary (s : List Char) : Option (Except LiteralError Float) := do
  let (coefficient, _) ← cutBesideAscii? s (← (bytes s).length.ppred)
  return match coefficient with
    | [] => .ok 1
    | ['+'] => .ok 1
    | ['-'] => .ok (-1)
    | coefficient =>
      match Complex.readDecimal? coefficient with
      | some x => .ok x
      | none => .error (.badComponent (String.ofList s))

/-- Reads a literal without blanks. -/
def ofBareLiteral (s : List Char) : Option (Except LiteralError Complex) :=
  if s.isEmpty then some (.error .empty)
  else if !s.any Complex.isUnitLetter then
    some ((Complex.readReal s).map fun re => ⟨re, 0⟩)
  else if !Complex.endsInUnit s then some (.error (.noSplit (String.ofList s)))
  else do
    match ← splitIndexFrom (bytes s) 1 with
    | none => return (← readImaginary s).map fun im => ⟨0, im⟩
    | some index =>
      let (real, imaginary) ← cutBesideAscii? s index
      if real.any Complex.isUnitLetter then return .error (.noSplit (String.ofList s))
      else
        match Complex.readReal real with
        | .error reason => return .error reason
        | .ok re => return (← readImaginary imaginary).map fun im => ⟨re, im⟩

/-- Reads a complex literal. -/
def ofLiteral (text : String) : Option (Except LiteralError Complex) :=
  ofBareLiteral (withoutBlanks text.toList)

/-- The imaginary units are ASCII. -/
theorem isAscii_of_isUnitLetter {c : Char} (h : Complex.isUnitLetter c = true) :
    isAscii c = true := by
  rcases Complex.isUnitLetter_iff.1 h with rfl | rfl <;> decide

/-- An imaginary part is cut before its last character. -/
theorem readImaginary_eq {s : List Char} (h : Complex.endsInUnit s = true) :
    readImaginary s = some (Complex.readImaginary s) := by
  obtain ⟨coefficient, c, rfl, hc⟩ := Complex.endsInUnit_iff.1 h
  have hascii := isAscii_of_isUnitLetter hc
  have hlength : (bytes (coefficient ++ [c])).length.ppred
      = some (bytes coefficient).length := by
    rw [bytes_append, bytes_cons, utf8EncodeChar_of_isAscii hascii]
    simp [bytes]
  rw [readImaginary, hlength]
  simp only [Option.bind_eq_bind, Option.bind_some, cutBesideAscii?_append hascii,
    Complex.readImaginary, List.dropLast_concat]
  rfl

/-- **A literal by bytes.** -/
theorem ofLiteral_eq (text : String) : ofLiteral text = some (Complex.ofLiteral text) := by
  rw [ofLiteral, Complex.ofLiteral]
  generalize withoutBlanks text.toList = s
  unfold ofBareLiteral Complex.ofBareLiteral
  split
  · rfl
  · split
    · cases Complex.readReal s <;> rfl
    · split
      · rfl
      · next hunit =>
        have hends : Complex.endsInUnit s = true := by simpa using hunit
        rw [splitIndex_bytes]
        cases hsplit : Complex.splitParts? s with
        | none =>
          simp only [Option.map_none, Option.bind_eq_bind, Option.bind_some,
            readImaginary_eq hends]
          cases Complex.readImaginary s <;> rfl
        | some parts =>
          obtain ⟨real, imaginary⟩ := parts
          obtain ⟨happend, hcut⟩ := Complex.splitParts?_eq_some_iff.1 hsplit
          obtain ⟨c, rest, rfl, hsign⟩ := hcut.sign
          have hascii : isAscii c = true := by rcases hsign with rfl | rfl <;> decide
          -- the imaginary unit at the end belongs to the imaginary part
          have hends' : Complex.endsInUnit (c :: rest) = true := by
            rw [Complex.endsInUnit, ← happend,
              List.getLast?_append_of_ne_nil real (List.cons_ne_nil c rest)] at hends
            exact hends
          have hparts : cutBesideAscii? s (bytes real).length = some (real, c :: rest) := by
            rw [← happend]
            exact cutBesideAscii?_append hascii real rest
          simp only [Option.map_some, Option.bind_eq_bind, Option.bind_some, hparts,
            readImaginary_eq hends']
          split
          · rfl
          · cases Complex.readReal real with
            | error reason => rfl
            | ok re => cases Complex.readImaginary (c :: rest) <;> rfl

end ComplexFormula.Positional
