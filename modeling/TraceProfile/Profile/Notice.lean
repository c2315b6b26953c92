import TraceProfile.Number.Numeral
import TraceProfile.Number.Style
import TraceProfile.Text.Quoted

/-!
# Notices

What is worth telling about a recording but changes nothing in the profile: readings that cannot be
used, references that lead nowhere, and knowledge that is dropped. A notice is data; its level and
its text are functions of it.
-/

namespace TraceProfile

/-- How much a notice matters. -/
inductive NoticeLevel where
  | debug
  | info
  | warn
deriving DecidableEq

/-- The name of a level. -/
def NoticeLevel.name : NoticeLevel → String
  | debug => "DEBUG"
  | info => "INFO"
  | warn => "WARN"

/-- Something to tell about a recording. -/
inductive Notice where
  /-- A sample has no time. -/
  | untimedSample (position : Nat)
  /-- A run of counter values has no time. -/
  | untimedCounter (position : Nat)
  /-- A counter key has no count. -/
  | countlessKey (key : UInt64) (time : Binary64)
  /-- A counter is not described. -/
  | undescribedCounter (id : UInt64)
  /-- A memory reading has no time. -/
  | untimedMemory (position : Nat)
  /-- A reference to a marker leads nowhere. -/
  | unknownMarker (ref : UInt64) (position : Nat)
  /-- A range of known code starts before the end of an earlier one. -/
  | overlappingRange (start stop earlierStart earlierStop : Nat)
  /-- A frame of compiled code has no row in its range. -/
  | missingRow (address : UInt64) (depth range : Nat)
  /-- A description is filed under something that is no counter id. -/
  | invalidCounterId (id : String)
  /-- All knowledge about the code of a thread is out of date. -/
  | expiredCoverage (tid : Int32) (position : Nat)
  /-- The entries of a file have been read. -/
  | entriesRead (count : Nat) (path : String)
deriving DecidableEq

namespace Notice

/-- The level of a notice. -/
def level : Notice → NoticeLevel
  | untimedSample .. | untimedCounter .. | countlessKey .. | undescribedCounter ..
  | untimedMemory .. => .debug
  | unknownMarker .. | overlappingRange .. | missingRow .. | invalidCounterId .. => .warn
  | expiredCoverage .. | entriesRead .. => .info

/-- The text of a notice. -/
def text : Notice → String
  | untimedSample position =>
    "Sample at buffer position " ++ toString position ++ " has no time, skipping"
  | untimedCounter position =>
    "Counter sample at buffer position " ++ toString position ++ " has no time, skipping"
  | countlessKey key time =>
    "Counter key " ++ toString key.toNat ++ " at time " ++ Number.Style.plain.render time
      ++ " has no count"
  | undescribedCounter id => "No description for counter " ++ Number.hexAddress id.toNat
  | untimedMemory position =>
    "Memory reading at buffer position " ++ toString position ++ " has no time, skipping"
  | unknownMarker ref position =>
    "Unknown marker " ++ Number.hexAddress ref.toNat ++ " at buffer position " ++ toString position
  | overlappingRange start stop earlierStart earlierStop =>
    "JIT info range " ++ toString start ++ ".." ++ toString stop ++ " overlaps the previous range "
      ++ toString earlierStart ++ ".." ++ toString earlierStop
  | missingRow address depth range =>
    "No JIT frame info for " ++ Number.hexAddress address.toNat ++ " at depth " ++ toString depth
      ++ " in range " ++ toString range
  | invalidCounterId id => "Ignoring counter description with invalid id " ++ Quoted.encode id
  | expiredCoverage tid position =>
    "Discarding expired JIT frame info for thread " ++ toString tid.toInt
      ++ ", buffer now starts at " ++ toString position
  | entriesRead count path => "Read " ++ toString count ++ " entries from " ++ path

/-- A notice as it is shown: its level and its text. -/
def line (n : Notice) : String := n.level.name ++ " " ++ n.text

end Notice

end TraceProfile
