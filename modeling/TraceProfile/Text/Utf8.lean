/-!
# UTF-8

Labels are recorded as bytes and may be cut anywhere, so reading them never fails: whatever is no
UTF-8 is replaced. A `Decoder` takes one byte at a time. Between characters it looks at a first
byte; inside a character it knows how many bytes are still due and which range the next one must lie
in. A byte outside that range, or the end of the text, closes the unfinished character with one
replacement character, and the byte is then looked at as a first byte.
-/

namespace TraceProfile.Utf8

/-- The bytes of a text. -/
def encode (text : String) : List UInt8 := text.toList.flatMap String.utf8EncodeChar

/-- The character that stands in for bytes that are no UTF-8. -/
def replacement : Char := '\ufffd'

/-- A character of which some bytes have been read. -/
structure Pending where
  /-- How many bytes are due after the next one. -/
  more : Nat
  /-- The least value the next byte may have. -/
  low : UInt8
  /-- The greatest value the next byte may have. -/
  high : UInt8
  /-- The code point bits read so far. -/
  value : Nat
deriving DecidableEq

/-- Bytes that are being read. -/
structure Decoder where
  /-- The characters that are finished. -/
  text : String := ""
  /-- The character that is not, if there is one. -/
  pending : Option Pending := none
deriving DecidableEq

namespace Decoder

/-- Looks at a byte that follows whole characters. The narrower ranges keep out forms that are
longer than needed, surrogates, and code points above `10ffff`. -/
def start (text : String) (b : UInt8) : Decoder :=
  let bits (n : Nat) : Nat := b.toNat % n
  if b ≤ 0x7f then ⟨text.push (Char.ofUInt8 b), none⟩
  else if b < 0xc2 then ⟨text.push replacement, none⟩
  else if b ≤ 0xdf then ⟨text, some ⟨0, 0x80, 0xbf, bits 0x20⟩⟩
  else if b = 0xe0 then ⟨text, some ⟨1, 0xa0, 0xbf, bits 0x10⟩⟩
  else if b = 0xed then ⟨text, some ⟨1, 0x80, 0x9f, bits 0x10⟩⟩
  else if b ≤ 0xef then ⟨text, some ⟨1, 0x80, 0xbf, bits 0x10⟩⟩
  else if b = 0xf0 then ⟨text, some ⟨2, 0x90, 0xbf, bits 0x08⟩⟩
  else if b ≤ 0xf3 then ⟨text, some ⟨2, 0x80, 0xbf, bits 0x08⟩⟩
  else if b = 0xf4 then ⟨text, some ⟨2, 0x80, 0x8f, bits 0x08⟩⟩
  else ⟨text.push replacement, none⟩

/-- Takes a byte. -/
def push (d : Decoder) (b : UInt8) : Decoder :=
  match d with
  | ⟨text, none⟩ => start text b
  | ⟨text, some ⟨more, low, high, value⟩⟩ =>
    if low ≤ b ∧ b ≤ high then
      let value := value * 0x40 + b.toNat % 0x40
      match more with
      | 0 => ⟨text.push (Char.ofNat value), none⟩
      | more + 1 => ⟨text, some ⟨more, 0x80, 0xbf, value⟩⟩
    else start (text.push replacement) b

/-- The text of the bytes that have been taken. -/
def finish (d : Decoder) : String :=
  match d with
  | ⟨text, none⟩ => text
  | ⟨text, some _⟩ => text.push replacement

end Decoder

/-- The text of the bytes, with one replacement character for each maximal run of bytes that
starts a character and does not finish it, and for each byte that starts none. -/
def decodeLossy (bytes : Array UInt8) : String := (bytes.foldl Decoder.push {}).finish

end TraceProfile.Utf8
