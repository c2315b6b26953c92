import TraceProfile.Buffer.Entry
import TraceProfile.Text.Utf8

/-!
# Texts in the buffer

A text is recorded as a run of fragments, eight bytes each, the last one filled up with zeros. It is
put together again by a `TextBuilder`, which knows either the length of the text in bytes or that
the text ends at the first zero. The bytes come from a buffer of which the start may be gone, so
nothing is assumed about them: the declared length is only a bound, and bytes that are no UTF-8 are
replaced.
-/

namespace TraceProfile

/-- The first eight bytes of a list, filled up with zeros. -/
def Chunk.ofBytes (bytes : List UInt8) : Chunk := Vector.ofFn fun i => bytes.getD i 0

/-- Bytes cut into chunks. -/
def Chunk.cut : List UInt8 → List Chunk
  | [] => []
  | b :: rest => Chunk.ofBytes (b :: rest) :: Chunk.cut (rest.drop 7)
termination_by bytes => bytes.length
decreasing_by
  simp only [List.length_drop, List.length_cons]
  omega

namespace Entry

/-- The fragments of a text. -/
def fragments (text : String) : List Entry :=
  (Chunk.cut (Utf8.encode text)).map .stringFragment

/-- The entries of a label frame: the length of its text, its flags, and the text. -/
def labelFrame (text : String) (flags : UInt64) : List Entry :=
  .label (UInt64.ofNat (Utf8.encode text).length) :: .frameFlags flags :: fragments text

end Entry

/-- A text that is being put together from fragments. -/
structure TextBuilder where
  /-- The declared length in bytes; without one the text ends at the first zero. -/
  limit : Option Nat
  /-- The bytes so far. -/
  bytes : Array UInt8 := #[]
  /-- Whether the first zero has been met; a text of declared length has no such end. -/
  terminated : Bool := false

namespace TextBuilder

/-- Whether the text takes no more bytes. -/
def isComplete (b : TextBuilder) : Bool :=
  match b.limit with
  | some limit => limit ≤ b.bytes.size
  | none => b.terminated

/-- Takes the bytes of a fragment that belong to the text. -/
def push (b : TextBuilder) (chars : Chunk) : TextBuilder :=
  if b.isComplete then b
  else
    match b with
    | ⟨some limit, bytes, terminated⟩ =>
      let due := limit - bytes.size
      ⟨some limit, bytes ++ chars.toArray.extract 0 due, terminated⟩
    | ⟨none, bytes, _⟩ =>
      let text := chars.toArray.takeWhile (· ≠ 0)
      ⟨none, bytes ++ text, text.size < 8⟩

/-- The text so far. -/
def finish (b : TextBuilder) : String := Utf8.decodeLossy b.bytes

/-- Takes the fragments at the front of a list of entries, up to the one that completes the text. -/
def feed (b : TextBuilder) : List Entry → TextBuilder
  | .stringFragment chars :: rest =>
    let b := b.push chars
    if b.isComplete then b else b.feed rest
  | _ => b

end TextBuilder

/-- The text of the fragments at the front of a list of entries. -/
def textOfFragments (limit : Option Nat) (entries : List Entry) : String :=
  (TextBuilder.feed { limit } entries).finish

end TraceProfile
