import TraceProfile.Buffer.Wire
import TraceProfile.Command.Descriptions
import TraceProfile.Command.Options
import TraceProfile.Json.Printer
import TraceProfile.Profile.Process
import TraceProfile.Profile.Session

/-!
# Running the command

The command reads a file of entries and writes the profile of one thread, alone or wrapped into a
process. It works on a map from paths to what stands there. The output file is created after the
entries have been read and before the counter descriptions are, so a command that fails leaves it
empty if the descriptions are at fault, and untouched if the entries are.
-/

namespace TraceProfile.Command

/-- What stands at a path. -/
inductive Item where
  /-- A file with its content. -/
  | file (content : ByteArray)
  /-- A directory, which can be opened and gives an error when it is read. -/
  | directory

/-- What stands at which path. -/
abbrev Files := List (String × Item)

namespace Files

/-- What stands at a path, if anything does. -/
def find? (files : Files) (path : String) : Option Item := files.lookup path

/-- The content of a file, if it exists. -/
def read? (files : Files) (path : String) : Option ByteArray :=
  match files.find? path with
  | some (.file content) => some content
  | _ => none

/-- Gives a file a new content, whether it exists or not. -/
def write (files : Files) (path : String) (content : ByteArray) : Files :=
  (path, .file content) :: files.filter (·.1 ≠ path)

end Files

/-- Why a run fails. -/
inductive RunError where
  /-- A file cannot be opened, or the entries file cannot be read. -/
  | io
  /-- The bytes of the entries file are no entries. -/
  | decode (error : Entry.DecodeError)
  /-- The counters file does not hold descriptions, or its content cannot be read. -/
  | json
deriving DecidableEq

/-- The report of an error. -/
def RunError.message : RunError → String
  | io => "I/O error"
  | decode error => error.message
  | json => "JSON error"

/-- What a run leaves behind. -/
structure Outcome where
  /-- The files after the run. -/
  files : Files
  /-- What was written to the standard output. -/
  stdout : ByteArray := .empty
  /-- Why the run failed, if it did. -/
  error : Option RunError := none
  /-- What the run had to tell. -/
  notices : List Notice := []

namespace Options

/-- The settings that the options stand for. -/
def settings (o : Options) : Settings := { sinceTime := o.since, threadName := o.threadName }

/-- The part of the buffer that the entries of the file are. -/
def window (o : Options) (entries : Array Entry) : Window := .ofEntries o.rangeStart entries

/-- The profile of the thread. -/
def thread (o : Options) (w : Window) : ThreadProfile :=
  (Session.profile { tid := o.tid } w none (fun _ => none) o.settings).1

/-- Creates the output file, if there is one. -/
def createOutput (o : Options) (files : Files) : Except RunError Files :=
  match o.output with
  | some path =>
    match files.find? path with
    | some .directory => .error .io
    | _ => .ok (files.write path .empty)
  | none => .ok files

/-- Reads the counter descriptions. No file means no descriptions. -/
def readDescriptions (o : Options) (files : Files) : Except RunError DescriptionFile :=
  match o.counters with
  | none => .ok []
  | some path =>
    match files.find? path with
    | none => .error .io
    | some .directory => .error .json
    | some (.file bytes) =>
      match DescriptionFile.parse? bytes with
      | some file => .ok file
      | none => .error .json

/-- Writes a profile to the output and ends the run. -/
def emit (o : Options) (files : Files) (profile : Json) (notices : List Notice) : Outcome :=
  let bytes := (profile.render o.pretty ++ "\n").toUTF8
  match o.output with
  | some path => { files := files.write path bytes, notices }
  | none => { files, stdout := bytes, notices }

/-- Wraps the thread into a process and writes it. -/
def emitProcess (o : Options) (files : Files) (pid : UInt32) (w : Window)
    (notices : List Notice) : Outcome :=
  match o.readDescriptions files with
  | .error e => { files, error := some e, notices }
  | .ok file =>
    let index := file.index
    let descriptions : CounterDescriptions := fun id => index[id]?
    let tables := ProcessTables.ofWindow w descriptions o.settings
    let process : ProcessProfile :=
      { name := "Process " ++ toString pid.toNat, pid, threads := [o.thread w], tables }
    o.emit files process.toJson
      (notices ++ file.invalidIds.map .invalidCounterId
        ++ ProcessTables.notices w descriptions o.settings)

/-- Runs the command. -/
def run (o : Options) (files : Files) : Outcome :=
  match files.read? o.entriesFile with
  | none => { files, error := some .io }
  | some bytes =>
    match Entry.decodeAll bytes with
    | .error e => { files, error := some (.decode e) }
    | .ok entries =>
      let w := o.window entries
      let notices := .entriesRead entries.size o.entriesFile
        :: Session.profileNotices { tid := o.tid } w none fun _ => none
      match o.createOutput files with
      | .error e => { files, error := some e, notices }
      | .ok created =>
        match o.pid with
        | some pid => o.emitProcess created pid w notices
        | none => o.emit created (o.thread w).toJson notices

end Options

end TraceProfile.Command
