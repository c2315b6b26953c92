import TraceProfile.Number.Binary64

/-!
# Buffer entries

A profiler writes its recording into a buffer of entries, small records that each hold one value.
The kind of an entry says what the value means and fixes its type: a signed 32-bit integer, a
64-bit word, a signed 64-bit count, a floating-point number, or eight bytes of a text. Samples,
markers and readings are runs of entries; `TraceProfile.Reading` gives them their meaning.
-/

namespace TraceProfile

/-- Eight bytes: the payload of an encoded entry, and one piece of a recorded text. -/
abbrev Chunk := Vector UInt8 8

/-- What an entry holds. -/
inductive Kind where
  | categoryPair
  | collectionStart
  | collectionEnd
  | label
  | frameFlags
  | stringFragment
  | jitReturnAddr
  | lineNumber
  | columnNumber
  | nativeLeafAddr
  | marker
  | pause
  | responsiveness
  | resume
  | threadId
  | time
  | residentMemory
  | unsharedMemory
  | counterId
  | counterKey
  | number
  | count
  | overheadTime
  | overheadDuration
deriving DecidableEq

namespace Kind

/-- All kinds, by their tags from 1 on. -/
def all : List Kind :=
  [categoryPair, collectionStart, collectionEnd, label, frameFlags, stringFragment, jitReturnAddr,
    lineNumber, columnNumber, nativeLeafAddr, marker, pause, responsiveness, resume, threadId, time,
    residentMemory, unsharedMemory, counterId, counterKey, number, count, overheadTime,
    overheadDuration]

/-- The byte that stands for a kind in an encoded entry; zero is no kind. -/
def tag : Kind → UInt8
  | categoryPair => 1
  | collectionStart => 2
  | collectionEnd => 3
  | label => 4
  | frameFlags => 5
  | stringFragment => 6
  | jitReturnAddr => 7
  | lineNumber => 8
  | columnNumber => 9
  | nativeLeafAddr => 10
  | marker => 11
  | pause => 12
  | responsiveness => 13
  | resume => 14
  | threadId => 15
  | time => 16
  | residentMemory => 17
  | unsharedMemory => 18
  | counterId => 19
  | counterKey => 20
  | number => 21
  | count => 22
  | overheadTime => 23
  | overheadDuration => 24

/-- The kind that a tag stands for. -/
def ofTag? (tag : UInt8) : Option Kind := all.find? (·.tag == tag)

/-- The name under which a kind is reported. -/
def name : Kind → String
  | categoryPair => "CategoryPair"
  | collectionStart => "CollectionStart"
  | collectionEnd => "CollectionEnd"
  | label => "Label"
  | frameFlags => "FrameFlags"
  | stringFragment => "DynamicStringFragment"
  | jitReturnAddr => "JitReturnAddr"
  | lineNumber => "LineNumber"
  | columnNumber => "ColumnNumber"
  | nativeLeafAddr => "NativeLeafAddr"
  | marker => "Marker"
  | pause => "Pause"
  | responsiveness => "Responsiveness"
  | resume => "Resume"
  | threadId => "ThreadId"
  | time => "Time"
  | residentMemory => "ResidentMemory"
  | unsharedMemory => "UnsharedMemory"
  | counterId => "CounterId"
  | counterKey => "CounterKey"
  | number => "Number"
  | count => "Count"
  | overheadTime => "ProfilerOverheadTime"
  | overheadDuration => "ProfilerOverheadDuration"

end Kind

/-- One record of the buffer. -/
inductive Entry where
  /-- The category of a label frame. -/
  | categoryPair (category : Int32)
  /-- The start of a collection, during which no samples are taken. -/
  | collectionStart (time : Binary64)
  /-- The end of a collection. -/
  | collectionEnd (time : Binary64)
  /-- The start of a label frame, with the length of its text in bytes. -/
  | label (length : UInt64)
  /-- The flags of a label frame. -/
  | frameFlags (bits : UInt64)
  /-- Eight bytes of a text. -/
  | stringFragment (chars : Chunk)
  /-- A frame of compiled code, by the address it returns to. -/
  | jitReturnAddr (address : UInt64)
  /-- The line of a label frame. -/
  | lineNumber (line : Int32)
  /-- The column of a label frame. -/
  | columnNumber (column : Int32)
  /-- A frame of native code, by its address. -/
  | nativeLeafAddr (address : UInt64)
  /-- A marker, which is kept outside the buffer. -/
  | marker (ref : UInt64)
  /-- The profiler was paused. -/
  | pause (time : Binary64)
  /-- How long the thread had been unresponsive at a sample. -/
  | responsiveness (duration : Binary64)
  /-- The profiler was resumed. -/
  | resume (time : Binary64)
  /-- The thread that the following entries are about. -/
  | threadId (tid : Int32)
  /-- The time of a sample or of a reading. -/
  | time (time : Binary64)
  /-- The resident memory of the process. -/
  | residentMemory (bytes : Binary64)
  /-- The unshared memory of the process. -/
  | unsharedMemory (bytes : UInt64)
  /-- The counter that the following entries are about. -/
  | counterId (id : UInt64)
  /-- The key under which a counter value is kept. -/
  | counterKey (key : UInt64)
  /-- The number of changes of a counter. -/
  | number (number : UInt64)
  /-- The value of a counter. -/
  | count (count : Int64)
  /-- The time of one turn of the sampler. -/
  | overheadTime (time : Binary64)
  /-- The time that the sampler itself took for a part of its turn. -/
  | overheadDuration (duration : Binary64)
deriving DecidableEq

namespace Entry

/-- The kind of an entry. -/
def kind : Entry → Kind
  | categoryPair _ => .categoryPair
  | collectionStart _ => .collectionStart
  | collectionEnd _ => .collectionEnd
  | label _ => .label
  | frameFlags _ => .frameFlags
  | stringFragment _ => .stringFragment
  | jitReturnAddr _ => .jitReturnAddr
  | lineNumber _ => .lineNumber
  | columnNumber _ => .columnNumber
  | nativeLeafAddr _ => .nativeLeafAddr
  | marker _ => .marker
  | pause _ => .pause
  | responsiveness _ => .responsiveness
  | resume _ => .resume
  | threadId _ => .threadId
  | time _ => .time
  | residentMemory _ => .residentMemory
  | unsharedMemory _ => .unsharedMemory
  | counterId _ => .counterId
  | counterKey _ => .counterKey
  | number _ => .number
  | count _ => .count
  | overheadTime _ => .overheadTime
  | overheadDuration _ => .overheadDuration

/-- The length of a label, if the entry starts one. -/
def label? : Entry → Option UInt64
  | label length => some length
  | _ => none

/-- The flags of a frame, if the entry holds them. -/
def frameFlags? : Entry → Option UInt64
  | frameFlags bits => some bits
  | _ => none

/-- The address of compiled code, if the entry holds one. -/
def jitReturnAddr? : Entry → Option UInt64
  | jitReturnAddr address => some address
  | _ => none

/-- The line of a frame, if the entry holds one. -/
def lineNumber? : Entry → Option Int32
  | lineNumber line => some line
  | _ => none

/-- The column of a frame, if the entry holds one. -/
def columnNumber? : Entry → Option Int32
  | columnNumber column => some column
  | _ => none

/-- The category of a frame, if the entry holds one. -/
def categoryPair? : Entry → Option Int32
  | categoryPair category => some category
  | _ => none

/-- The reference to a marker, if the entry holds one. -/
def marker? : Entry → Option UInt64
  | marker ref => some ref
  | _ => none

/-- The responsiveness, if the entry holds one. -/
def responsiveness? : Entry → Option Binary64
  | responsiveness duration => some duration
  | _ => none

/-- The unshared memory, if the entry holds it. -/
def unsharedMemory? : Entry → Option UInt64
  | unsharedMemory bytes => some bytes
  | _ => none

/-- The time that the sampler took, if the entry holds one. -/
def overheadDuration? : Entry → Option Binary64
  | overheadDuration duration => some duration
  | _ => none

end Entry

end TraceProfile
