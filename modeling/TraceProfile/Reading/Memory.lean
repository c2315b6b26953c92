import TraceProfile.Buffer.Window
import TraceProfile.Reading.Settings
import TraceProfile.Table.Layout

/-!
# Memory readings

A reading is the resident memory, possibly followed by the unshared memory. Its time is that of the
closest time entry before it, whatever that entry was written for. A reading before the first time
entry has no time and is left out.
-/

namespace TraceProfile

/-- A reading of the memory of the process. -/
structure MemoryReading where
  /-- The position of the reading. -/
  position : Nat
  /-- The closest time before it. -/
  time : Option Binary64
  /-- The resident memory. -/
  resident : Binary64
  /-- The unshared memory, if it was recorded too. -/
  unshared : Option UInt64
deriving DecidableEq

/-- The readings among the slots, given the closest time before them. -/
def MemoryReading.readFrom (time : Option Binary64) : List Slot → List MemoryReading
  | [] => []
  | slot :: rest =>
    match slot.entry with
    | .time t => readFrom (some t) rest
    | .residentMemory resident =>
      ⟨slot.position, time, resident, (takeIf Entry.unsharedMemory? rest).1⟩ :: readFrom time rest
    | _ => readFrom time rest

/-- A reading with its time. -/
structure MemorySample where
  /-- The time. -/
  time : Binary64
  /-- The resident memory. -/
  resident : Binary64
  /-- The unshared memory, if it was recorded too. -/
  unshared : Option UInt64
deriving DecidableEq

namespace MemorySample

/-- The columns of the table. -/
def columns : List String := ["time", "rss", "uss"]

/-- The cells of a row. -/
def toJson (sample : MemorySample) : Json :=
  .arr [.float sample.time, .float sample.resident,
    .ofOption (fun bytes => .nat bytes.toNat) sample.unshared]

end MemorySample

/-- The memory of the process over time. -/
structure MemoryTable where
  /-- The resident memory of the first sample. -/
  initialHeap : Binary64
  /-- The samples. -/
  samples : List MemorySample
deriving DecidableEq

/-- The emitted table. -/
def MemoryTable.toJson (t : MemoryTable) : Json :=
  .obj [("initial_heap", .float t.initialHeap),
    ("samples", tableJson MemorySample.columns (t.samples.map MemorySample.toJson))]

namespace Window

/-- All readings, with and without a time. -/
def memoryReadings (w : Window) : List MemoryReading := MemoryReading.readFrom none w.slots

/-- The readings that have a time and are shown. -/
def memorySamples (w : Window) (settings : Settings) : List MemorySample :=
  w.memoryReadings.filterMap fun reading =>
    match reading.time with
    | some time =>
      if settings.includes time then some ⟨time, reading.resident, reading.unshared⟩ else none
    | none => none

/-- The table of the readings that are shown, if there are any. -/
def memory (w : Window) (settings : Settings) : Option MemoryTable :=
  match w.memorySamples settings with
  | [] => none
  | first :: rest => some ⟨first.resident, first :: rest⟩

/-- The positions of the readings that have no time. -/
def untimedMemory (w : Window) : List Nat :=
  (w.memoryReadings.filter fun reading => reading.time.isNone).map MemoryReading.position

end Window

end TraceProfile
