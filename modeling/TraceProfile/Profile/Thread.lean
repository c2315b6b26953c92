import TraceProfile.Profile.Notice
import TraceProfile.Profile.Tables
import TraceProfile.Reading.Pause
import TraceProfile.Reading.Settings

/-!
# Thread profiles

The profile of a thread: its samples and markers, the tables that they refer to, and the ranges of
time in which no samples were taken. Samples are added before markers, so the frames come first in
the string table; what is not shown leaves nothing behind in any table.
-/

namespace TraceProfile

/-- The profile of a thread. -/
structure ThreadProfile where
  /-- The id of the thread. -/
  tid : Int32
  /-- The name, if it is not the id. -/
  name : Option String
  /-- The type of the process. -/
  processType : String
  /-- The ranges of time without samples. -/
  pausedRanges : List PausedRange
  /-- The samples. -/
  samples : List SampleRow
  /-- The markers. -/
  markers : List MarkerRow
  /-- The rows of the stack table. -/
  nodes : List StackNode
  /-- The rows of the frame table. -/
  frames : List FrameRow
  /-- The string table. -/
  strings : List String

namespace ThreadProfile

/-- The markers of a thread that a store knows and that are shown. -/
def shownMarkers (tid : Int32) (w : Window) (store : MarkerStore) (settings : Settings) :
    List Marker :=
  (w.markers tid store).filter fun marker => settings.includes marker.time

/-- The samples of a thread that are shown. -/
def shownSamples (tid : Int32) (w : Window) (settings : Settings) : List RecordedSample :=
  (w.samples tid).filter fun sample => settings.includes sample.time

/-- The sample rows of a thread, and the tables with what they refer to added. -/
def sampleRows (tid : Int32) (w : Window) (tables : Tables) (settings : Settings) :
    List SampleRow × Tables :=
  tables.addSamples (.ofLabel settings.rootLabel) (shownSamples tid w settings)

/-- The marker rows of a thread, and the string table with their names added. -/
def markerRows (tid : Int32) (w : Window) (store : MarkerStore) (strings : StringTable)
    (settings : Settings) : List MarkerRow × StringTable :=
  MarkerRow.ofMarkers strings (shownMarkers tid w store settings)

/-- The profile of a thread in a window, given what is known about compiled code. -/
def ofWindow (tid : Int32) (w : Window) (coverage : Jit.Coverage) (store : MarkerStore)
    (settings : Settings) : ThreadProfile :=
  let (samples, tables) := sampleRows tid w (.ofCoverage coverage) settings
  let (markers, strings) := markerRows tid w store tables.strings settings
  { tid, samples, markers
    name := settings.threadName
    processType := settings.processType
    pausedRanges := PausedRange.readAll w.entries.toList
    nodes := tables.nodes.toList
    frames := tables.frames.rows.toList
    strings := strings.toList }

/-- What there is to tell about the samples and markers of a thread. -/
def notices (tid : Int32) (w : Window) (store : MarkerStore) : List Notice :=
  (w.untimedSamples tid).map .untimedSample
    ++ (w.unknownMarkers tid store).map fun use => .unknownMarker use.ref use.position

/-- The name that is shown. -/
def shownName (p : ThreadProfile) : String :=
  p.name.getD ("Thread <" ++ toString p.tid.toInt ++ ">")

/-- The emitted form. -/
def toJson (p : ThreadProfile) : Json :=
  .obj [("name", .str p.shownName), ("tid", .int p.tid.toInt),
    ("processType", .str p.processType),
    ("pausedRanges", .arr (p.pausedRanges.map PausedRange.toJson)),
    ("samples", SampleRow.tableJson p.samples), ("markers", MarkerRow.tableJson p.markers),
    ("stackTable", tableJson StackNode.columns (p.nodes.map StackNode.toJson)),
    ("frameTable", tableJson FrameRow.columns (p.frames.map FrameRow.toJson)),
    ("stringTable", .arr (p.strings.map .str))]

end ThreadProfile

end TraceProfile
