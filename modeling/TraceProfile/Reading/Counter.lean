import TraceProfile.Buffer.Window
import TraceProfile.Number.Numeral
import TraceProfile.Reading.Settings
import TraceProfile.Table.Grouping
import TraceProfile.Table.Layout

/-!
# Counters

A counter is read at a counter entry that is directly followed by a time. What follows is a run of
values, each a key, a count and possibly a number of changes; a key without a count ends the run. No
entry of a run is a counter entry, so a run is read at every counter entry and nothing is skipped.

The values of all runs are sorted into counters by id, and within a counter into groups by key, both
in the order of their first appearance.
-/

namespace TraceProfile

/-- What is known about a counter beside its values. -/
structure CounterDescription where
  /-- The name. -/
  name : String
  /-- The category. -/
  category : String
  /-- What the counter counts. -/
  description : String
deriving DecidableEq

/-- The descriptions by the id of the counter. -/
abbrev CounterDescriptions := UInt64 → Option CounterDescription

/-- The description of a counter that is not described: its id is its name. -/
def CounterDescription.ofId (id : UInt64) : CounterDescription where
  name := Number.hexAddress id.toNat
  category := ""
  description := ""

/-- A value of a counter. -/
structure CounterValue where
  /-- The key under which the value is kept. -/
  key : UInt64
  /-- The count. -/
  count : Int64
  /-- The number of changes, if it was recorded. -/
  number : Option UInt64
deriving DecidableEq

/-- The values of a counter that were recorded together. -/
structure CounterRun where
  /-- The position of the counter entry. -/
  position : Nat
  /-- The id of the counter. -/
  id : UInt64
  /-- The time; a run without one has no values. -/
  time : Option Binary64
  /-- The values. -/
  values : List CounterValue
  /-- The key without a count that ended the run, if one did. -/
  danglingKey : Option UInt64
deriving DecidableEq

namespace CounterRun

/-- The values at the front of the slots, and the key without a count that ends them. -/
def readValues : List Slot → List CounterValue × Option UInt64
  | ⟨_, .counterKey key⟩ :: ⟨_, .count count⟩ :: ⟨_, .number number⟩ :: rest =>
    let more := readValues rest
    (⟨key, count, some number⟩ :: more.1, more.2)
  | ⟨_, .counterKey key⟩ :: ⟨_, .count count⟩ :: rest =>
    let more := readValues rest
    (⟨key, count, none⟩ :: more.1, more.2)
  | ⟨_, .counterKey key⟩ :: _ => ([], some key)
  | _ => ([], none)

/-- The runs of all counters, in the order of the buffer. -/
def readAll : List Slot → List CounterRun
  | ⟨position, .counterId id⟩ :: ⟨timePosition, .time time⟩ :: rest =>
    let values := readValues rest
    ⟨position, id, some time, values.1, values.2⟩ :: readAll (⟨timePosition, .time time⟩ :: rest)
  | ⟨position, .counterId id⟩ :: rest => ⟨position, id, none, [], none⟩ :: readAll rest
  | _ :: rest => readAll rest
  | [] => []

end CounterRun

/-- A value of a counter at a time. -/
structure CounterSample where
  /-- The time. -/
  time : Binary64
  /-- The number of changes, if it was recorded. -/
  number : Option UInt64
  /-- The count. -/
  count : Int64
deriving DecidableEq

/-- The values of a counter under one key. -/
structure CounterGroup where
  /-- The key. -/
  key : UInt64
  /-- The values over time. -/
  samples : List CounterSample
deriving DecidableEq

/-- A counter with all its values. -/
structure Counter where
  /-- The id. -/
  id : UInt64
  /-- What the counter is. -/
  description : CounterDescription
  /-- The values by key, the groups in the order of their first values. -/
  groups : List CounterGroup
deriving DecidableEq

/-- A value with the id of its counter. -/
structure CounterRecord where
  /-- The id of the counter. -/
  id : UInt64
  /-- The key. -/
  key : UInt64
  /-- The value. -/
  sample : CounterSample
deriving DecidableEq

/-- The values of a run that has a time. -/
def CounterRun.records (run : CounterRun) : List CounterRecord :=
  match run.time with
  | some time => run.values.map fun v => ⟨run.id, v.key, ⟨time, v.number, v.count⟩⟩
  | none => []

/-- The groups of the values of one counter. -/
def CounterGroup.ofRecords (records : List CounterRecord) : List CounterGroup :=
  (groupBy CounterRecord.key records).map fun (key, members) =>
    { key, samples := members.map CounterRecord.sample }

/-- The counters that have values. -/
def Counter.ofRecords (descriptions : CounterDescriptions) (records : List CounterRecord) :
    List Counter :=
  (groupBy CounterRecord.id records).map fun (id, members) =>
    { id
      description := (descriptions id).getD (.ofId id)
      groups := CounterGroup.ofRecords members }

namespace Window

/-- The runs of all counters. -/
def counterRuns (w : Window) : List CounterRun := CounterRun.readAll w.slots

/-- The values of all counters that are shown. -/
def counterRecords (w : Window) (settings : Settings) : List CounterRecord :=
  (w.counterRuns.flatMap CounterRun.records).filter fun r => settings.includes r.sample.time

/-- The counters that have a value that is shown. -/
def counters (w : Window) (descriptions : CounterDescriptions) (settings : Settings) :
    List Counter :=
  Counter.ofRecords descriptions (w.counterRecords settings)

end Window

namespace CounterSample

/-- The columns of the table of a group. -/
def columns : List String := ["time", "number", "count"]

/-- The cells of a row. -/
def toJson (sample : CounterSample) : Json :=
  .arr [.float sample.time, .ofOption (fun n => .nat n.toNat) sample.number,
    .int sample.count.toInt]

end CounterSample

/-- The emitted form of a group. -/
def CounterGroup.toJson (group : CounterGroup) : Json :=
  .obj [("id", .nat group.key.toNat),
    ("samples",
      tableJson CounterSample.columns (group.samples.map CounterSample.toJson))]

/-- The emitted form of a counter. -/
def Counter.toJson (counter : Counter) : Json :=
  .obj [("name", .str counter.description.name), ("category", .str counter.description.category),
    ("description", .str counter.description.description),
    ("sample_groups", .arr (counter.groups.map CounterGroup.toJson))]

end TraceProfile
