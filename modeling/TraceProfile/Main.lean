import TraceProfile.Command.Run

/-!
# The command

Loads the files that the options name, runs the command on them, and stores what it wrote.
-/

namespace TraceProfile.Command

/-- How the command is used. -/
def usage : String :=
  "Usage: buffer2json [OPTIONS] --tid <TID> <ENTRIES_FILE>\n\n"
    ++ "Reads a file of fixed-size profiler buffer entries and prints the profile of a thread.\n\n"
    ++ "      --tid <TID>                  the thread\n"
    ++ "      --range-start <RANGE_START>  the buffer position of the first entry [default: 0]\n"
    ++ "      --since <SINCE>              leave out what happened before this time, in ms\n"
    ++ "      --thread-name <THREAD_NAME>  the name of the thread\n"
    ++ "      --pid <PID>                  wrap the thread into a process with this id\n"
    ++ "      --counters <COUNTERS>        a JSON file of counter descriptions; needs --pid\n"
    ++ "      --pretty                     indent the JSON\n"
    ++ "  -o, --output <OUTPUT>            the file to write, in place of the standard output\n"
    ++ "  -h, --help                       print this text\n"
    ++ "  -V, --version                    print the version"

/-- The version of the command. -/
def version : String := "buffer2json 0.1.0"

/-- The number of the system error that tells of a directory where a file was expected. -/
def isDirectoryCode : UInt32 := 21

/-- What stands at a path, if it can be opened. -/
def find? (path : String) : IO (Option Item) := do
  try
    let bytes ← IO.FS.readBinFile path
    return some (.file bytes)
  catch
    | .inappropriateType _ code _ =>
      return if code = isDirectoryCode then some .directory else none
    | _ => return none

/-- The files that the options name, as far as they can be opened. -/
def load (o : Options) : IO Files := do
  let mut files : Files := []
  for path in o.entriesFile :: o.counters.toList do
    if let some item ← find? path then
      files := (path, item) :: files
  return files

/-- Runs the command on the files of the system and gives the exit code. -/
def execute (o : Options) : IO UInt32 := do
  let files ← load o
  let outcome := o.run files
  if let some path := o.output then
    if let some content := outcome.files.read? path then
      if (files.read? path).map ByteArray.data ≠ some content.data then
        IO.FS.writeBinFile path content
  (← IO.getStdout).write outcome.stdout
  match outcome.error with
  | none => return 0
  | some e =>
    IO.eprintln ("buffer2json: " ++ e.message)
    return 1

end TraceProfile.Command

open TraceProfile.Command in
/-- The entry point of the command. -/
def main (arguments : List String) : IO UInt32 := do
  match Options.parse arguments with
  | .ok options =>
    try execute options
    catch e =>
      IO.eprintln ("buffer2json: I/O error: " ++ toString e)
      return 1
  | .error .displayHelp =>
    IO.println usage
    return 0
  | .error .displayVersion =>
    IO.println version
    return 0
  | .error e =>
    IO.eprintln ("error: " ++ e.name ++ "\n\n" ++ usage)
    return 2
