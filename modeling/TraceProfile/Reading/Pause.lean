import TraceProfile.Buffer.Entry
import TraceProfile.Json.Value

/-!
# Paused ranges

No samples are taken while the profiler is paused and while a collection runs. Either is recorded by
an entry at its start and one at its end. The end of a range may be missing because it is still
open, and its start because it has been overwritten.
-/

namespace TraceProfile

/-- Why no samples were taken. -/
inductive PauseReason where
  /-- The profiler was paused. -/
  | profilerPaused
  /-- A collection was running. -/
  | collecting
deriving DecidableEq

/-- The text for a reason. -/
def PauseReason.text : PauseReason → String
  | profilerPaused => "profiler-paused"
  | collecting => "collecting"

/-- A range of time in which no samples were taken. -/
structure PausedRange where
  /-- The start, if it is in the buffer. -/
  startTime : Option Binary64
  /-- The end, if it has come. -/
  endTime : Option Binary64
  /-- The reason. -/
  reason : PauseReason
deriving DecidableEq

namespace PausedRange

/-- A range without an end, if there is a start. -/
def opened (reason : PauseReason) (start : Option Binary64) : List PausedRange :=
  match start with
  | some time => [⟨some time, none, reason⟩]
  | none => []

/-- The ranges that the entries close, in the order of their ends, and then those that stay open,
given the open start of either kind. A second start replaces the first. -/
def readFrom (paused collecting : Option Binary64) : List Entry → List PausedRange
  | [] => opened .profilerPaused paused ++ opened .collecting collecting
  | .pause time :: rest => readFrom (some time) collecting rest
  | .resume time :: rest =>
    ⟨paused, some time, .profilerPaused⟩ :: readFrom none collecting rest
  | .collectionStart time :: rest => readFrom paused (some time) rest
  | .collectionEnd time :: rest => ⟨collecting, some time, .collecting⟩ :: readFrom paused none rest
  | _ :: rest => readFrom paused collecting rest

/-- The ranges of a recording. -/
def readAll (entries : List Entry) : List PausedRange := readFrom none none entries

/-- The emitted form. -/
def toJson (range : PausedRange) : Json :=
  .obj [("startTime", .ofOption .float range.startTime),
    ("endTime", .ofOption .float range.endTime), ("reason", .str range.reason.text)]

end PausedRange

end TraceProfile
