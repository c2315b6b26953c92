import TraceProfile.Number.Numeral

/-!
# JSON tokens

The first of the two steps of reading JSON. A token is a mark, a word, a number literal or a string
literal. A number literal is kept as it is spelled, because what it stands for matters only where
its value is used. For the same reason a string literal is kept as the bytes of its text, which need
not be UTF-8 as long as nobody asks for the text. `Token.scan?` gives the tokens of the bytes of a
text, or nothing if some part of it is no token. All tokens but string literals are written in
ASCII. White space is the space, the tab, the line feed and the carriage return.
-/

namespace TraceProfile.Json

/-- A number literal as it is spelled. -/
structure Literal where
  /-- Whether it starts with a minus sign. -/
  negative : Bool
  /-- The digits before the point. -/
  whole : List Char
  /-- The digits after the point, if there is one. -/
  fraction : Option (List Char)
  /-- Whether the exponent is negative, and its digits, if there is one. -/
  exponent : Option (Bool × List Char)
deriving DecidableEq

/-- A token. -/
inductive Token where
  | openObject
  | closeObject
  | openArray
  | closeArray
  | colon
  | comma
  | null
  | true
  | false
  /-- A number literal. -/
  | number (literal : Literal)
  /-- A string literal, by the bytes of its text. -/
  | string (bytes : ByteArray)

/-- The bytes of the text of a string literal, as far as it has been read. -/
structure StringDraft where
  /-- The bytes. -/
  bytes : ByteArray := .empty
  /-- A high surrogate after them that waits for a low one. -/
  high : Option Nat := none

namespace StringDraft

/-- What stands for a surrogate without its partner: a byte that is in no UTF-8, so that a literal
with such a surrogate has no text. -/
def loneSurrogate : UInt8 := 0xff

/-- The bytes if no low surrogate follows. -/
def finish (s : StringDraft) : ByteArray :=
  match s with
  | ⟨bytes, none⟩ => bytes
  | ⟨bytes, some _⟩ => bytes.push loneSurrogate

/-- Adds a byte, written as itself or by a short escape. -/
def push (s : StringDraft) (b : UInt8) : StringDraft := ⟨s.finish.push b, none⟩

/-- Adds the character with a code point. -/
def pushChar (bytes : ByteArray) (codePoint : Nat) : StringDraft :=
  ⟨(String.utf8EncodeChar (Char.ofNat codePoint)).foldl ByteArray.push bytes, none⟩

/-- Adds a UTF-16 code unit, written by its hexadecimal digits. A high and a low surrogate directly
after it are one character. -/
def pushUnit (s : StringDraft) (unit : Nat) : StringDraft :=
  if 0xd800 ≤ unit ∧ unit < 0xdc00 then ⟨s.finish, some unit⟩
  else if 0xdc00 ≤ unit ∧ unit < 0xe000 then
    match s with
    | ⟨bytes, some high⟩ => pushChar bytes (0x10000 + (high - 0xd800) * 0x400 + (unit - 0xdc00))
    | ⟨bytes, none⟩ => ⟨bytes.push loneSurrogate, none⟩
  else pushChar s.finish unit

end StringDraft

/-- The byte that a one-letter escape stands for. -/
def shortEscape? (letter : UInt8) : Option UInt8 :=
  match Char.ofUInt8 letter with
  | '"' => some 0x22
  | '\\' => some 0x5c
  | '/' => some 0x2f
  | 'b' => some 0x08
  | 'f' => some 0x0c
  | 'n' => some 0x0a
  | 'r' => some 0x0d
  | 't' => some 0x09
  | _ => none

/-- The code unit that four hexadecimal digits stand for. -/
def readUnit? (a b c d : UInt8) : Option Nat :=
  Number.readNumeral? 16 ([a, b, c, d].map Char.ofUInt8)

/-- Reads the rest of a string literal: the bytes of its text, and what follows the closing quote. A
byte below `20` and an unknown escape are refused. -/
def scanString? (s : StringDraft) : List UInt8 → Option (ByteArray × List UInt8)
  | [] => none
  | 0x22 :: rest => some (s.finish, rest)
  | 0x5c :: 0x75 :: a :: b :: c :: d :: rest =>
    match readUnit? a b c d with
    | some unit => scanString? (s.pushUnit unit) rest
    | none => none
  | 0x5c :: letter :: rest =>
    match shortEscape? letter with
    | some value => scanString? (s.push value) rest
    | none => none
  | value :: rest =>
    if value < 0x20 ∨ value = 0x5c then none else scanString? (s.push value) rest

theorem length_lt_of_scanString? {s : StringDraft} {text left : List UInt8} {bytes : ByteArray}
    (h : scanString? s text = some (bytes, left)) : left.length < text.length := by
  fun_induction scanString? s text with
  | case2 s rest =>
    obtain ⟨-, rfl⟩ : _ ∧ rest = left := by simpa using h
    exact Nat.lt_succ_self _
  | case3 s a b c d rest unit hunit ih =>
    exact Nat.lt_trans (ih h) (by simp only [List.length_cons]; omega)
  | case5 s letter rest _ value hvalue ih =>
    exact Nat.lt_trans (ih h) (by simp only [List.length_cons]; omega)
  | case8 s value rest _ _ _ hvalue ih => exact Nat.lt_succ_of_lt (ih h)
  | _ => simp at h

/-- Whether a byte is a decimal digit. -/
def isDigit (b : UInt8) : Bool := 0x30 ≤ b && b ≤ 0x39

/-- Reads one or more digits. -/
def scanDigits? (text : List UInt8) : Option (List Char × List UInt8) :=
  let digits := text.takeWhile isDigit
  if digits.isEmpty then none else some (digits.map Char.ofUInt8, text.dropWhile isDigit)

theorem length_lt_of_scanDigits? {text left : List UInt8} {digits : List Char}
    (h : scanDigits? text = some (digits, left)) : left.length < text.length := by
  have hsplit := congrArg List.length
    (List.takeWhile_append_dropWhile (p := isDigit) (l := text))
  simp only [scanDigits?, List.isEmpty_iff] at h
  split at h
  · simp at h
  · next hne =>
    obtain ⟨rfl, rfl⟩ : _ ∧ _ = left := by simpa using h
    have := List.length_pos_iff.2 hne
    simp only [List.length_append] at hsplit
    omega

/-- Reads the digits before the point; a zero stands alone. -/
def scanWhole? : List UInt8 → Option (List Char × List UInt8)
  | 0x30 :: rest => some (['0'], rest)
  | text => scanDigits? text

/-- Reads the point and the digits after it, if there is a point. -/
def scanFraction? : List UInt8 → Option (Option (List Char) × List UInt8)
  | 0x2e :: rest => (scanDigits? rest).map fun (digits, left) => (some digits, left)
  | text => some (none, text)

/-- Reads the sign of an exponent: whether it is negative, and the text after the sign. -/
def exponentSign : List UInt8 → Bool × List UInt8
  | 0x2d :: rest => (true, rest)
  | 0x2b :: rest => (false, rest)
  | text => (false, text)

/-- Reads the exponent, if there is one. -/
def scanExponent? : List UInt8 → Option (Option (Bool × List Char) × List UInt8)
  | [] => some (none, [])
  | letter :: rest =>
    if letter = 0x65 ∨ letter = 0x45 then
      let sign := exponentSign rest
      (scanDigits? sign.2).map fun (digits, left) => (some (sign.1, digits), left)
    else some (none, letter :: rest)

/-- Reads a number literal after its sign. -/
def scanUnsigned? (negative : Bool) (text : List UInt8) : Option (Literal × List UInt8) :=
  (scanWhole? text).bind fun (whole, text) =>
    (scanFraction? text).bind fun (fraction, text) =>
      (scanExponent? text).map fun (exponent, text) =>
        (⟨negative, whole, fraction, exponent⟩, text)

/-- Reads a number literal. -/
def scanNumber? : List UInt8 → Option (Literal × List UInt8)
  | 0x2d :: rest => scanUnsigned? true rest
  | text => scanUnsigned? false text

theorem length_lt_of_scanWhole? {text left : List UInt8} {digits : List Char}
    (h : scanWhole? text = some (digits, left)) : left.length < text.length := by
  unfold scanWhole? at h
  split at h
  · obtain ⟨-, rfl⟩ : _ ∧ _ = left := by simpa using h
    simp
  · exact length_lt_of_scanDigits? h

theorem length_le_of_scanFraction? {text left : List UInt8} {fraction : Option (List Char)}
    (h : scanFraction? text = some (fraction, left)) : left.length ≤ text.length := by
  unfold scanFraction? at h
  split at h
  · next rest =>
    obtain ⟨⟨digits, after⟩, hd, he⟩ := Option.map_eq_some_iff.1 h
    obtain ⟨-, rfl⟩ : _ ∧ after = left := by simpa using he
    have := length_lt_of_scanDigits? hd
    simp only [List.length_cons]
    omega
  · obtain ⟨-, rfl⟩ : _ ∧ _ = left := by simpa using h
    exact Nat.le_refl _

theorem length_exponentSign_le (text : List UInt8) :
    (exponentSign text).2.length ≤ text.length := by
  unfold exponentSign
  split <;> simp

theorem length_le_of_scanExponent? {text left : List UInt8} {exponent : Option (Bool × List Char)}
    (h : scanExponent? text = some (exponent, left)) : left.length ≤ text.length := by
  unfold scanExponent? at h
  split at h
  · cases h
    exact Nat.le_refl _
  · next c rest =>
    split at h
    · obtain ⟨⟨digits, after⟩, hd, he⟩ := Option.map_eq_some_iff.1 h
      obtain ⟨-, rfl⟩ : _ ∧ after = left := by simpa using he
      have := length_lt_of_scanDigits? hd
      have := length_exponentSign_le rest
      simp only [List.length_cons]
      omega
    · obtain ⟨-, rfl⟩ : _ ∧ _ = left := by simpa using h
      exact Nat.le_refl _

theorem length_lt_of_scanUnsigned? {negative : Bool} {text left : List UInt8} {literal : Literal}
    (h : scanUnsigned? negative text = some (literal, left)) : left.length < text.length := by
  obtain ⟨⟨whole, a⟩, ha, h⟩ := Option.bind_eq_some_iff.1 h
  obtain ⟨⟨fraction, b⟩, hb, h⟩ := Option.bind_eq_some_iff.1 h
  obtain ⟨⟨exponent, c⟩, hc, h⟩ := Option.map_eq_some_iff.1 h
  obtain ⟨-, rfl⟩ : _ ∧ c = left := by simpa using h
  have := length_lt_of_scanWhole? ha
  have := length_le_of_scanFraction? hb
  have := length_le_of_scanExponent? hc
  omega

theorem length_lt_of_scanNumber? {text left : List UInt8} {literal : Literal}
    (h : scanNumber? text = some (literal, left)) : left.length < text.length := by
  unfold scanNumber? at h
  split at h
  · have := length_lt_of_scanUnsigned? h
    simp only [List.length_cons]
    omega
  · exact length_lt_of_scanUnsigned? h

/-- Reads one token that is not a string literal: a mark, one of the words `null`, `true` and
`false`, or a number literal. -/
def scanPlain? : List UInt8 → Option (Token × List UInt8)
  | 0x7b :: rest => some (.openObject, rest)
  | 0x7d :: rest => some (.closeObject, rest)
  | 0x5b :: rest => some (.openArray, rest)
  | 0x5d :: rest => some (.closeArray, rest)
  | 0x3a :: rest => some (.colon, rest)
  | 0x2c :: rest => some (.comma, rest)
  | 0x6e :: 0x75 :: 0x6c :: 0x6c :: rest => some (.null, rest)
  | 0x74 :: 0x72 :: 0x75 :: 0x65 :: rest => some (.true, rest)
  | 0x66 :: 0x61 :: 0x6c :: 0x73 :: 0x65 :: rest => some (.false, rest)
  | text => (scanNumber? text).map fun (literal, left) => (.number literal, left)

/-- Reads one token. -/
def scanToken? : List UInt8 → Option (Token × List UInt8)
  | 0x22 :: rest => (scanString? {} rest).map fun (bytes, left) => (.string bytes, left)
  | text => scanPlain? text

theorem length_lt_of_scanPlain? {text left : List UInt8} {token : Token}
    (h : scanPlain? text = some (token, left)) : left.length < text.length := by
  unfold scanPlain? at h
  split at h
  case h_10 =>
    obtain ⟨⟨literal, after⟩, hl, he⟩ := Option.map_eq_some_iff.1 h
    obtain ⟨-, rfl⟩ : _ ∧ after = left := by simpa using he
    exact length_lt_of_scanNumber? hl
  all_goals
    obtain ⟨-, rfl⟩ : _ ∧ _ = left := by simpa using h
    simp only [List.length_cons]
    omega

theorem length_lt_of_scanToken? {text left : List UInt8} {token : Token}
    (h : scanToken? text = some (token, left)) : left.length < text.length := by
  unfold scanToken? at h
  split at h
  · obtain ⟨⟨bytes, after⟩, hl, he⟩ := Option.map_eq_some_iff.1 h
    obtain ⟨-, rfl⟩ : _ ∧ after = left := by simpa using he
    have := length_lt_of_scanString? hl
    simp only [List.length_cons]
    omega
  · exact length_lt_of_scanPlain? h

/-- Whether a byte may stand between tokens. -/
def isBlank (b : UInt8) : Bool := b = 0x20 || b = 0x0a || b = 0x0d || b = 0x09

/-- The tokens of a text after tokens that have been read. -/
def Token.scanFrom? (tokens : Array Token) (text : List UInt8) : Option (Array Token) :=
  match text with
  | [] => some tokens
  | b :: rest =>
    if isBlank b then Token.scanFrom? tokens rest
    else
      match _h : scanToken? (b :: rest) with
      | some (token, left) => Token.scanFrom? (tokens.push token) left
      | none => none
termination_by text.length
decreasing_by
  · simp
  · exact length_lt_of_scanToken? _h

/-- The tokens of a text. -/
def Token.scan? (text : List UInt8) : Option (List Token) :=
  (Token.scanFrom? #[] text).map Array.toList

end TraceProfile.Json
