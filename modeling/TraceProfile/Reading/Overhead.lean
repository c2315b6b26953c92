import TraceProfile.Buffer.Window
import TraceProfile.Reading.Settings
import TraceProfile.Table.Layout

/-!
# Profiler overhead

For each turn of the sampler the buffer holds its time and, directly after it, up to four durations:
for locking, for cleaning expired markers, for counters and for threads. Later ones may be missing.
-/

namespace TraceProfile

/-- What one turn of the sampler cost. -/
structure OverheadSample where
  /-- The time of the turn. -/
  time : Binary64
  /-- The durations, at most four. -/
  durations : List Binary64
deriving DecidableEq

namespace OverheadSample

/-- Up to `limit` durations at the front of the slots. -/
def takeDurations : Nat → List Slot → List Binary64
  | 0, _ => []
  | _ + 1, [] => []
  | limit + 1, slot :: rest =>
    match slot.entry.overheadDuration? with
    | some duration => duration :: takeDurations limit rest
    | none => []

/-- The turns of the sampler. -/
def readAll : List Slot → List OverheadSample
  | [] => []
  | slot :: rest =>
    match slot.entry with
    | .overheadTime time => ⟨time, takeDurations 4 rest⟩ :: readAll rest
    | _ => readAll rest

/-- The columns of the table. -/
def columns : List String := ["time", "locking", "expiredMarkerCleaning", "counters", "threads"]

/-- The cells of a row; a missing duration is an empty cell. -/
def toJson (sample : OverheadSample) : Json :=
  .arr (.float sample.time
    :: (List.range 4).map fun i => .ofOption .float sample.durations[i]?)

end OverheadSample

/-- The turns of the sampler that are shown. -/
def Window.overhead (w : Window) (settings : Settings) : List OverheadSample :=
  (OverheadSample.readAll w.slots).filter fun sample => settings.includes sample.time

/-- The emitted table. -/
def overheadJson (samples : List OverheadSample) : Json :=
  .obj [("samples", tableJson OverheadSample.columns (samples.map OverheadSample.toJson))]

end TraceProfile
