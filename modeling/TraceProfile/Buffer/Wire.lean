import TraceProfile.Buffer.Entry

/-!
# The encoded form of entries

An encoded entry takes nine bytes: the tag of its kind and eight bytes of payload. Integers, words
and floating-point numbers are stored as 64-bit words, least significant byte first; a signed 32-bit
integer is extended by its sign on the way out and cut down to its low half on the way in. The bytes
of a text are stored as they are.
-/

namespace TraceProfile

/-- The lowest `width` bytes of a word, least significant first. -/
def littleEndian : Nat → UInt64 → List UInt8
  | 0, _ => []
  | width + 1, word => word.toUInt8 :: littleEndian width (word / 256)

theorem length_littleEndian (width : Nat) (word : UInt64) :
    (littleEndian width word).length = width := by
  induction width generalizing word with
  | zero => rfl
  | succ width ih => simp [littleEndian, ih]

/-- The bytes of a word, least significant first. -/
def Chunk.ofWord (word : UInt64) : Chunk :=
  ⟨(littleEndian 8 word).toArray, by simp [length_littleEndian]⟩

/-- The word whose bytes are given, least significant first. -/
def Chunk.toWord (chunk : Chunk) : UInt64 :=
  chunk.foldr (fun b word => b.toUInt64 + 256 * word) 0

/-- The byte at an offset; there are only zeros after the end. -/
def byteAt (bytes : ByteArray) (offset : Nat) : UInt8 := bytes[offset]?.getD 0

/-- The eight bytes at an offset. -/
def Chunk.ofBytesAt (bytes : ByteArray) (offset : Nat) : Chunk :=
  Vector.ofFn fun i => byteAt bytes (offset + i)

namespace Entry

/-- The payload bytes of an entry. -/
def payload : Entry → Chunk
  | categoryPair n | lineNumber n | columnNumber n | threadId n => .ofWord n.toInt64.toUInt64
  | collectionStart x | collectionEnd x | pause x | responsiveness x | resume x | time x
  | residentMemory x | overheadTime x | overheadDuration x => .ofWord x.bits
  | label w | frameFlags w | jitReturnAddr w | nativeLeafAddr w | marker w | unsharedMemory w
  | counterId w | counterKey w | number w => .ofWord w
  | count n => .ofWord n.toUInt64
  | stringFragment chars => chars

/-- The entry of the given kind with the given payload bytes. -/
def ofPayload (kind : Kind) (payload : Chunk) : Entry :=
  let word := payload.toWord
  let int : Int32 := word.toInt64.toInt32
  match kind with
  | .categoryPair => categoryPair int
  | .collectionStart => collectionStart ⟨word⟩
  | .collectionEnd => collectionEnd ⟨word⟩
  | .label => label word
  | .frameFlags => frameFlags word
  | .stringFragment => stringFragment payload
  | .jitReturnAddr => jitReturnAddr word
  | .lineNumber => lineNumber int
  | .columnNumber => columnNumber int
  | .nativeLeafAddr => nativeLeafAddr word
  | .marker => marker word
  | .pause => pause ⟨word⟩
  | .responsiveness => responsiveness ⟨word⟩
  | .resume => resume ⟨word⟩
  | .threadId => threadId int
  | .time => time ⟨word⟩
  | .residentMemory => residentMemory ⟨word⟩
  | .unsharedMemory => unsharedMemory word
  | .counterId => counterId word
  | .counterKey => counterKey word
  | .number => number word
  | .count => count word.toInt64
  | .overheadTime => overheadTime ⟨word⟩
  | .overheadDuration => overheadDuration ⟨word⟩

/-- The number of payload bytes of an encoded entry. -/
def payloadSize : Nat := 8

/-- The number of bytes of an encoded entry. -/
def encodedSize : Nat := 1 + payloadSize

/-- The bytes of an entry. -/
def encode (e : Entry) : List UInt8 := e.kind.tag :: e.payload.toList

/-- Why bytes are no sequence of entries. -/
inductive DecodeError where
  /-- The first byte of an entry is not the tag of a kind. -/
  | invalidKind (tag : UInt8)
  /-- The number of bytes is not a multiple of the size of an entry. -/
  | truncated (length : Nat)
deriving DecidableEq

/-- The report of an error. -/
def DecodeError.message : DecodeError → String
  | invalidKind tag => "Invalid entry kind tag " ++ toString tag.toNat
  | truncated length =>
    "Entry data of length " ++ toString length ++ " is not a multiple of the "
      ++ toString encodedSize ++ "-byte entry size"

/-- The entry with the given tag and payload bytes. -/
def decode (tag : UInt8) (payload : Chunk) : Except DecodeError Entry :=
  match Kind.ofTag? tag with
  | some kind => .ok (ofPayload kind payload)
  | none => .error (.invalidKind tag)

/-- The bytes of a sequence of entries. -/
def encodeAll (entries : Array Entry) : ByteArray :=
  entries.foldl (fun bytes e => e.payload.foldl ByteArray.push (bytes.push e.kind.tag)) .empty

theorem toList_data_foldl_push (l : List UInt8) (bytes : ByteArray) :
    (l.foldl ByteArray.push bytes).data.toList = bytes.data.toList ++ l := by
  induction l generalizing bytes with
  | nil => simp
  | cons b l ih => simp [ih, ByteArray.data_push]

/-- The bytes of a sequence of entries are the bytes of its entries. -/
theorem encodeAll_eq (entries : Array Entry) :
    (encodeAll entries).data.toList = entries.toList.flatMap encode := by
  have h (l : List Entry) (bytes : ByteArray) :
      (l.foldl (fun bytes e => e.payload.foldl ByteArray.push (bytes.push e.kind.tag))
        bytes).data.toList = bytes.data.toList ++ l.flatMap encode := by
    induction l generalizing bytes with
    | nil => simp
    | cons e l ih =>
      rw [List.foldl_cons, ih, ← Vector.foldl_toList, toList_data_foldl_push]
      simp [encode, ByteArray.data_push]
  rw [encodeAll, ← Array.foldl_toList, h]
  rfl

/-- Adds the entries of as many records as said, the first of them at an offset, to entries that
have been read, or gives the error of the first bad record. -/
def decodeRecords (bytes : ByteArray) (entries : Array Entry) (offset : Nat) :
    Nat → Except DecodeError (Array Entry)
  | 0 => .ok entries
  | more + 1 =>
    match decode (byteAt bytes offset) (Chunk.ofBytesAt bytes (offset + 1)) with
    | .ok entry => decodeRecords bytes (entries.push entry) (offset + encodedSize) more
    | .error e => .error e

/-- The entries of a sequence of bytes. The length is checked before any tag. -/
def decodeAll (bytes : ByteArray) : Except DecodeError (Array Entry) :=
  if bytes.size % encodedSize ≠ 0 then .error (.truncated bytes.size)
  else decodeRecords bytes #[] 0 (bytes.size / encodedSize)

end Entry

end TraceProfile
