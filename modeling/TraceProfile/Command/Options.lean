import TraceProfile.Number.Reader

/-!
# Command line options

The command takes the path of a file of entries and options. An option with a value takes it after
an equals sign, directly after its letter, or as the next argument; that argument must not start
with a dash, a lone dash excepted. After `--` every argument is a path.

A value given as an argument of its own is looked at only when the next option or path comes, or at
the end. An argument that cannot be placed at all is therefore reported before a bad value in front
of it.
-/

namespace TraceProfile.Command

/-- Why arguments are refused, or answered without a run. -/
inductive UsageError where
  /-- A value is not of the type of its option. -/
  | valueValidation
  /-- An argument is no option and no path that is expected. -/
  | unknownArgument
  /-- A path or an option that is needed is missing. -/
  | missingRequiredArgument
  /-- An option has no value, or a path is empty. -/
  | invalidValue
  /-- An option that takes no value has one. -/
  | tooManyValues
  /-- An option is given twice. -/
  | argumentConflict
  /-- Help is asked for. -/
  | displayHelp
  /-- The version is asked for. -/
  | displayVersion
deriving DecidableEq

/-- The name of an error. -/
def UsageError.name : UsageError → String
  | valueValidation => "ValueValidation"
  | unknownArgument => "UnknownArgument"
  | missingRequiredArgument => "MissingRequiredArgument"
  | invalidValue => "InvalidValue"
  | tooManyValues => "TooManyValues"
  | argumentConflict => "ArgumentConflict"
  | displayHelp => "DisplayHelp"
  | displayVersion => "DisplayVersion"

/-- What may stand on the command line and takes a value. -/
inductive Parameter where
  /-- The file of entries, given without a name. -/
  | entriesFile
  /-- The thread. -/
  | tid
  /-- The position of the first entry. -/
  | rangeStart
  /-- The time before which nothing is shown. -/
  | since
  /-- The name of the thread. -/
  | threadName
  /-- The process to wrap the thread into. -/
  | pid
  /-- The file of counter descriptions. -/
  | counters
  /-- The file to write. -/
  | output
deriving DecidableEq

/-- An option that takes no value. -/
inductive Switch where
  | pretty
  | help
  | version
deriving DecidableEq

/-- An option, by its long name. -/
def parameterOfName? (name : List Char) : Option Parameter :=
  [("tid", Parameter.tid), ("range-start", .rangeStart), ("since", .since),
    ("thread-name", .threadName), ("pid", .pid), ("counters", .counters),
    ("output", .output)].lookup (String.ofList name)

/-- An option without a value, by its long name. -/
def switchOfName? (name : List Char) : Option Switch :=
  [("pretty", Switch.pretty), ("help", .help), ("version", .version)].lookup (String.ofList name)

/-- What the arguments ask for, as far as they have been read. -/
structure Draft where
  /-- The file of entries. -/
  entriesFile : Option String := none
  /-- The thread. -/
  tid : Option Int32 := none
  /-- The position of the first entry. -/
  rangeStart : Option Nat := none
  /-- The time before which nothing is shown. -/
  since : Option Binary64 := none
  /-- The name of the thread. -/
  threadName : Option String := none
  /-- The process to wrap the thread into. -/
  pid : Option UInt32 := none
  /-- The file of counter descriptions. -/
  counters : Option String := none
  /-- The file to write. -/
  output : Option String := none
  /-- Whether the text is to be indented. -/
  pretty : Bool := false

/-- What the command is to do. -/
structure Options where
  /-- The file of entries. -/
  entriesFile : String
  /-- The thread. -/
  tid : Int32
  /-- The position of the first entry. -/
  rangeStart : Nat := 0
  /-- The time before which nothing is shown. -/
  since : Option Binary64 := none
  /-- The name of the thread. -/
  threadName : Option String := none
  /-- The process to wrap the thread into. -/
  pid : Option UInt32 := none
  /-- The file of counter descriptions; it needs a process. -/
  counters : Option String := none
  /-- The file to write, if it is not the standard output. -/
  output : Option String := none
  /-- Whether the text is to be indented. -/
  pretty : Bool := false

/-- A signed numeral within the given bounds. -/
def readBounded? (low high : Int) (text : List Char) : Option Int :=
  (Number.readSigned? text).bind fun n => if low ≤ n ∧ n ≤ high then some n else none

/-- A path, which must not be empty. -/
def readPath (text : List Char) : Except UsageError String :=
  if text.isEmpty then .error .invalidValue else .ok (String.ofList text)

/-- The value, or the error that it is not of its type. -/
def validated {α : Type} : Option α → Except UsageError α
  | some value => .ok value
  | none => .error .valueValidation

/-- Sets a field that has not been set before. -/
def setField {α : Type} (field : Option α) (value : Except UsageError α)
    (update : Option α → Draft) : Except UsageError Draft :=
  match field, value with
  | some _, _ => .error .argumentConflict
  | none, .ok value => .ok (update (some value))
  | none, .error e => .error e

/-- Takes the value of an option or path. -/
def Draft.set (d : Draft) (parameter : Parameter) (text : List Char) : Except UsageError Draft :=
  match parameter with
  | .entriesFile => setField d.entriesFile (readPath text) fun v => { d with entriesFile := v }
  | .tid =>
    let value := (readBounded? (-0x80000000) 0x7fffffff text).map Int32.ofInt
    setField d.tid (validated value) fun v => { d with tid := v }
  | .rangeStart =>
    let value := (Number.readUnsigned? 10 text).bind fun n =>
      if n < 0x10000000000000000 then some n else none
    setField d.rangeStart (validated value) fun v => { d with rangeStart := v }
  | .since =>
    setField d.since (validated (Number.readBinary64? text)) fun v => { d with since := v }
  | .threadName =>
    setField d.threadName (.ok (String.ofList text)) fun v => { d with threadName := v }
  | .pid =>
    let value := (readBounded? 0 0xffffffff text).map fun n => UInt32.ofNat n.toNat
    setField d.pid (validated value) fun v => { d with pid := v }
  | .counters => setField d.counters (readPath text) fun v => { d with counters := v }
  | .output => setField d.output (readPath text) fun v => { d with output := v }

/-- The place between two arguments. -/
structure Scan where
  /-- What the arguments before ask for. -/
  draft : Draft := {}
  /-- An option or path that is still to be looked at, with its value if that has been met. -/
  pending : Option (Parameter × Option (List Char)) := none
  /-- Whether every argument that follows is a path. -/
  onlyPaths : Bool := false

namespace Scan

/-- Looks at the option or path that is pending. -/
def settle (s : Scan) : Except UsageError Scan :=
  match s.pending with
  | none => .ok s
  | some (_, none) => .error .invalidValue
  | some (parameter, some text) =>
    (s.draft.set parameter text).map fun draft => { s with draft, pending := none }

/-- Takes an option that takes a value, given with the option or still to come. -/
def takeParameter (s : Scan) (parameter : Parameter) (value : Option (List Char)) :
    Except UsageError Scan :=
  s.settle.bind fun s =>
    match value with
    | none => .ok { s with pending := some (parameter, none) }
    | some text => (s.draft.set parameter text).map fun draft => { s with draft }

/-- Takes an option that takes no value. -/
def takeSwitch (s : Scan) (switch : Switch) : Except UsageError Scan :=
  s.settle.bind fun s =>
    match switch with
    | .help => .error .displayHelp
    | .version => .error .displayVersion
    | .pretty =>
      if s.draft.pretty then .error .argumentConflict
      else .ok { s with draft := { s.draft with pretty := true } }

/-- Takes an argument that starts with two dashes, without them. -/
def takeLong (s : Scan) (text : List Char) : Except UsageError Scan :=
  let name := text.takeWhile (· ≠ '=')
  let value := (text.dropWhile (· ≠ '=')).tail?
  match parameterOfName? name, switchOfName? name with
  | some parameter, _ => s.takeParameter parameter value
  | none, some switch => if value.isSome then .error .tooManyValues else s.takeSwitch switch
  | none, none => .error .unknownArgument

/-- Takes an argument that starts with one dash, without it. An option without a value that has a
one-letter name ends the command, so nothing after its letter is looked at. -/
def takeShort (s : Scan) (text : List Char) : Except UsageError Scan :=
  match text with
  | 'h' :: _ => s.takeSwitch .help
  | 'V' :: _ => s.takeSwitch .version
  | 'o' :: rest =>
    let value := match rest with
      | [] => none
      | '=' :: value => some value
      | value => some value
    s.takeParameter .output value
  | _ => .error .unknownArgument

/-- Takes an argument that is a path. -/
def takePath (s : Scan) (text : List Char) : Except UsageError Scan :=
  let isSecond := s.draft.entriesFile.isSome || s.pending.any (·.1 = .entriesFile)
  if isSecond then .error .unknownArgument
  else s.settle.map fun s => { s with pending := some (.entriesFile, some text) }

/-- Takes an argument that may be the value of the option before it. -/
def takeValue (s : Scan) (text : List Char) : Except UsageError Scan :=
  match s.pending with
  | some (parameter, none) => .ok { s with pending := some (parameter, some text) }
  | _ => s.takePath text

/-- Takes one argument. -/
def take (s : Scan) (argument : String) : Except UsageError Scan :=
  if s.onlyPaths then s.takePath argument.toList
  else match argument.toList with
    | ['-', '-'] => .ok { s with onlyPaths := true }
    | '-' :: '-' :: rest => s.takeLong rest
    | ['-'] => s.takeValue ['-']
    | '-' :: rest => s.takeShort rest
    | text => s.takeValue text

/-- Takes arguments in order. -/
def takeAll (s : Scan) : List String → Except UsageError Scan
  | [] => s.settle
  | argument :: rest => (s.take argument).bind fun s => s.takeAll rest

end Scan

/-- What the arguments ask for, if nothing that is needed is missing. -/
def Draft.finish (d : Draft) : Except UsageError Options :=
  match d.entriesFile, d.tid with
  | some entriesFile, some tid =>
    if d.counters.isSome ∧ d.pid.isNone then .error .missingRequiredArgument
    else .ok
      { entriesFile, tid
        rangeStart := d.rangeStart.getD 0
        since := d.since
        threadName := d.threadName
        pid := d.pid
        counters := d.counters
        output := d.output
        pretty := d.pretty }
  | _, _ => .error .missingRequiredArgument

/-- The options that the arguments of the command stand for. -/
def Options.parse (arguments : List String) : Except UsageError Options :=
  (Scan.takeAll {} arguments).bind fun s => s.draft.finish

end TraceProfile.Command
