import TraceProfile.Buffer.Entry

/-!
# Typed access to entries

Each accessor reads the value of the entries whose kind has its type and meaning, and faults on all
other kinds. The fault names the accessor and the kind of the entry it was used on.
-/

namespace TraceProfile

/-- The accessors, by the type and meaning of what they read. -/
inductive Accessor where
  /-- Signed 32-bit integers. -/
  | int
  /-- Floating-point numbers. -/
  | double
  /-- Signed 64-bit integers. -/
  | int64
  /-- Unsigned 64-bit integers that are neither addresses nor references. -/
  | uint64
  /-- Addresses and the ids of counters. -/
  | address
  /-- References to markers. -/
  | marker
  /-- The bytes of a text. -/
  | chars
deriving DecidableEq

/-- The name under which an accessor is reported. -/
def Accessor.name : Accessor → String
  | int => "get_int"
  | double => "get_double"
  | int64 => "get_int64"
  | uint64 => "get_uint64"
  | address => "get_address"
  | marker => "get_marker"
  | chars => "get_chars"

/-- The use of an accessor on an entry that it does not fit. -/
structure AccessFault where
  /-- The accessor. -/
  accessor : Accessor
  /-- The kind of the entry. -/
  kind : Kind
deriving DecidableEq

/-- The report of a fault. -/
def AccessFault.message (fault : AccessFault) : String :=
  fault.accessor.name ++ " called on a " ++ fault.kind.name ++ " entry"

namespace Entry

/-- Reads a signed 32-bit integer. -/
def readInt : Entry → Except AccessFault Int32
  | categoryPair n | lineNumber n | columnNumber n | threadId n => .ok n
  | e => .error ⟨.int, e.kind⟩

/-- Reads a floating-point number. -/
def readDouble : Entry → Except AccessFault Binary64
  | collectionStart x | collectionEnd x | pause x | responsiveness x | resume x | time x
  | residentMemory x | overheadTime x | overheadDuration x => .ok x
  | e => .error ⟨.double, e.kind⟩

/-- Reads a signed 64-bit integer. -/
def readInt64 : Entry → Except AccessFault Int64
  | count n => .ok n
  | e => .error ⟨.int64, e.kind⟩

/-- Reads an unsigned 64-bit integer. -/
def readUInt64 : Entry → Except AccessFault UInt64
  | label n | frameFlags n | unsharedMemory n | counterKey n | number n => .ok n
  | e => .error ⟨.uint64, e.kind⟩

/-- Reads an address or the id of a counter. -/
def readAddress : Entry → Except AccessFault UInt64
  | jitReturnAddr a | nativeLeafAddr a | counterId a => .ok a
  | e => .error ⟨.address, e.kind⟩

/-- Reads a reference to a marker. -/
def readMarker : Entry → Except AccessFault UInt64
  | marker ref => .ok ref
  | e => .error ⟨.marker, e.kind⟩

/-- Reads the bytes of a text. -/
def readChars : Entry → Except AccessFault Chunk
  | stringFragment chars => .ok chars
  | e => .error ⟨.chars, e.kind⟩

end Entry

end TraceProfile
