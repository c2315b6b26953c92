import TraceProfile.Jit.Coverage
import TraceProfile.Profile.Notice
import TraceProfile.Reading.Marker
import TraceProfile.Reading.Sample
import TraceProfile.Table.Stack

/-!
# The shared tables of a thread

Samples refer to stacks, stacks to frames, and frames and markers to texts. The three tables start
out with the texts of a coverage, so that the rows that are ready for compiled code keep their
indices, and grow as samples and markers are added. A stack gets a row when a frame is appended to
it and when a sample refers to it, not before.
-/

namespace TraceProfile

namespace Jit.Timeline

/-- The keys of the frames of an address at a position, tagged with the range that knows them. -/
def keys? (t : Timeline) (address : UInt64) (position : Nat) : Option (List FrameKey) :=
  (t.lookup? address position).map fun (range, frames) => frames.map fun frame => .jit frame range

/-- The row that is ready for a frame of compiled code in the range with the given index. -/
def row? (t : Timeline) (frame : CodeFrame) (range : Nat) : Option FrameRow :=
  t.ranges[range]?.bind fun r => r.row? frame

end Jit.Timeline

/-- The row of a frame, given the string table. -/
def FrameKey.makeRow (timeline : Jit.Timeline) (key : FrameKey) (strings : StringTable) :
    FrameRow × StringTable :=
  match key with
  | .normal frame => FrameRow.ofLabelFrame frame strings
  | .jit frame range =>
    match timeline.row? frame range with
    | some row => (row, strings)
    | none => FrameRow.ofAddress frame.canonical strings

/-- The keys of the frames that a recorded frame stands for. Compiled code that is not known, and
native code, is shown by its address. -/
def RecordedFrame.keys (timeline : Jit.Timeline) : RecordedFrame → List FrameKey
  | .label frame => [.normal frame]
  | .compiled position address =>
    match timeline.keys? address position with
    | some keys => keys
    | none => [.ofAddress address]
  | .native address => [.ofAddress address]

/-- The tables that samples and markers refer to. -/
structure Tables where
  /-- The texts. -/
  strings : StringTable := {}
  /-- The frames. -/
  frames : FrameTable := {}
  /-- The stacks. -/
  nodes : StackTable := {}
  /-- The ranges of known code. -/
  timeline : Jit.Timeline := {}

/-- A row of the sample table. -/
structure SampleRow where
  /-- The index of the stack. -/
  stack : Option Nat
  /-- The time. -/
  time : Binary64
  /-- How long the thread had been unresponsive. -/
  responsiveness : Option Binary64
deriving DecidableEq

/-- A row of the marker table. -/
structure MarkerRow where
  /-- The index of the name. -/
  name : Nat
  /-- The time. -/
  time : Binary64
  /-- Free data. -/
  data : Option Json

namespace Tables

/-- Empty tables that take over the texts and ranges of a coverage. -/
def ofCoverage (c : Jit.Coverage) : Tables where
  strings := c.strings
  timeline := c.timeline

/-- The index of a frame, which is added if it is new. -/
def frameIndex (t : Tables) (key : FrameKey) : Nat × Tables :=
  match t with
  | { strings, frames, nodes, timeline } =>
    let (index, frames, strings) := frames.intern key strings (key.makeRow timeline)
    (index, { strings, frames, nodes, timeline })

/-- What there is to tell when a frame is asked for: that a new frame of compiled code has no row in
its range. -/
def frameNotices (t : Tables) (key : FrameKey) : List Notice :=
  match key with
  | .normal _ => []
  | .jit frame range =>
    if t.frames.keys.contains key ∨ (t.timeline.row? frame range).isSome then []
    else [.missingRow frame.canonical frame.depth range]

/-- The index of a stack, which is added if it is new. -/
def stackIndex (t : Tables) (node : StackNode) : Nat × Tables :=
  match t with
  | { strings, frames, nodes, timeline } =>
    let (index, nodes) := nodes.intern node
    (index, { strings, frames, nodes, timeline })

/-- The stack of a single frame. -/
def root (t : Tables) (key : FrameKey) : StackNode × Tables :=
  let (frame, t) := t.frameIndex key
  (⟨none, frame⟩, t)

/-- The stack of a frame inside another stack. -/
def append (t : Tables) (outer : StackNode) (key : FrameKey) : StackNode × Tables :=
  let (parent, t) := t.stackIndex outer
  let (frame, t) := t.frameIndex key
  (⟨some parent, frame⟩, t)

/-- The stack of frames inside another stack, the outermost first. -/
def appendAll (t : Tables) (outer : StackNode) : List FrameKey → StackNode × Tables
  | [] => (outer, t)
  | key :: rest =>
    let (node, t) := t.append outer key
    t.appendAll node rest

/-- The index of the stack of the given frames, the first being the outermost. -/
def internStack (t : Tables) (outermost : FrameKey) (frames : List FrameKey) : Nat × Tables :=
  let (node, t) := t.root outermost
  let (node, t) := t.appendAll node frames
  t.stackIndex node

/-- The row of a sample whose stack starts with the given frame. -/
def addSample (t : Tables) (outermost : FrameKey) (sample : RecordedSample) : SampleRow × Tables :=
  let (stack, t) := t.internStack outermost (sample.frames.flatMap (·.keys t.timeline))
  ({ stack := some stack, time := sample.time, responsiveness := sample.responsiveness }, t)

/-- The rows of samples, in order. -/
def addSamples (t : Tables) (outermost : FrameKey) :
    List RecordedSample → List SampleRow × Tables
  | [] => ([], t)
  | sample :: rest =>
    let (row, t) := t.addSample outermost sample
    let (rows, t) := t.addSamples outermost rest
    (row :: rows, t)

end Tables

/-- The rows of markers, in order; their names are interned. -/
def MarkerRow.ofMarkers (strings : StringTable) : List Marker → List MarkerRow × StringTable
  | [] => ([], strings)
  | marker :: rest =>
    let (name, strings) := strings.intern marker.name
    let (rows, strings) := MarkerRow.ofMarkers strings rest
    ({ name, time := marker.time, data := marker.data } :: rows, strings)

namespace SampleRow

/-- The columns of the sample table. -/
def columns : List String := ["stack", "time", "responsiveness"]

/-- The cells of a row. -/
def toJson (row : SampleRow) : Json :=
  .arr [.ofOption .nat row.stack, .float row.time, .ofOption .float row.responsiveness]

/-- The emitted table. -/
def tableJson (rows : List SampleRow) : Json := TraceProfile.tableJson columns (rows.map toJson)

end SampleRow

namespace MarkerRow

/-- The columns of the marker table. -/
def columns : List String := ["name", "time", "data"]

/-- The cells of a row. -/
def toJson (row : MarkerRow) : Json := .arr [.nat row.name, .float row.time, row.data.getD .null]

/-- The emitted table. -/
def tableJson (rows : List MarkerRow) : Json := TraceProfile.tableJson columns (rows.map toJson)

end MarkerRow

/-- The emitted string table. -/
def StringTable.toJson (t : StringTable) : Json := .arr (t.toList.map .str)

end TraceProfile
