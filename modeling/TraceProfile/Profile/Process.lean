import TraceProfile.Profile.Thread
import TraceProfile.Reading.Counter
import TraceProfile.Reading.Memory
import TraceProfile.Reading.Overhead
import Std.Data.TreeSet

/-!
# Process profiles

The profile of a process: those of its threads, and the readings that are about the process as a
whole. The memory and the overhead of the profiler are shown only if there are readings of them.
-/

namespace TraceProfile

/-- The readings that are about a process as a whole. -/
structure ProcessTables where
  /-- The counters. -/
  counters : List Counter := []
  /-- The memory. -/
  memory : Option MemoryTable := none
  /-- The overhead of the profiler. -/
  overhead : List OverheadSample := []

/-- The readings about the process in a window. -/
def ProcessTables.ofWindow (w : Window) (descriptions : CounterDescriptions)
    (settings : Settings) : ProcessTables where
  counters := w.counters descriptions settings
  memory := w.memory settings
  overhead := w.overhead settings

/-- What there is to tell about runs of counter values, given the ids of the counters that have been
met: a run without a time, a counter without a description when it is met first, and a key without a
count. -/
def CounterRun.notices (descriptions : CounterDescriptions) (settings : Settings) :
    Std.TreeSet UInt64 → List CounterRun → List Notice
  | _, [] => []
  | met, run :: rest =>
    match run.time with
    | none => .untimedCounter run.position :: CounterRun.notices descriptions settings met rest
    | some time =>
      let isNew := settings.includes time && !run.values.isEmpty && !met.contains run.id
      let undescribed := isNew && (descriptions run.id).isNone
      (if undescribed then [.undescribedCounter run.id] else [])
        ++ (run.danglingKey.map fun key => Notice.countlessKey key time).toList
        ++ CounterRun.notices descriptions settings (if isNew then met.insert run.id else met) rest

/-- What there is to tell about the readings of a process. -/
def ProcessTables.notices (w : Window) (descriptions : CounterDescriptions) (settings : Settings) :
    List Notice :=
  CounterRun.notices descriptions settings ∅ w.counterRuns ++ w.untimedMemory.map .untimedMemory

/-- The profile of a process. -/
structure ProcessProfile where
  /-- The name. -/
  name : String
  /-- The id. -/
  pid : UInt32
  /-- The threads. -/
  threads : List ThreadProfile := []
  /-- The readings about the process. -/
  tables : ProcessTables := {}

namespace ProcessProfile

/-- Adds the profile of a thread. -/
def addThread (p : ProcessProfile) (thread : ThreadProfile) : ProcessProfile :=
  { p with threads := p.threads ++ [thread] }

/-- The emitted form. -/
def toJson (p : ProcessProfile) : Json :=
  .obj ([("name", .str p.name), ("pid", .nat p.pid.toNat),
      ("threads", .arr (p.threads.map ThreadProfile.toJson)),
      ("counters", .arr (p.tables.counters.map Counter.toJson))]
    ++ (p.tables.memory.map fun memory => ("memory", memory.toJson)).toList
    ++ (if p.tables.overhead.isEmpty then []
        else [("profilerOverhead", overheadJson p.tables.overhead)]))

end ProcessProfile

end TraceProfile
