import TraceProfile.Json.Value

/-!
# Settings

What the caller chooses for a profile: the time before which samples, markers and readings are left
out, the names that the profile shows, and the label of the frame that every stack starts with.
-/

namespace TraceProfile

/-- The choices for one profile. -/
structure Settings where
  /-- The time before which nothing is shown. -/
  sinceTime : Option Binary64 := none
  /-- The name of the thread, if it is not to be named by its id. -/
  threadName : Option String := none
  /-- The type of the process. -/
  processType : String := "default"
  /-- The label of the outermost frame. -/
  rootLabel : String := "(root)"

namespace Settings

/-- Whether what happened at a time is shown. A NaN is not at or after any time. -/
def includes (s : Settings) (time : Binary64) : Bool :=
  match s.sinceTime with
  | some since => since.le time
  | none => true

/-- A number, of either kind, as a floating-point number. -/
def numberOfJson? : Json → Option Binary64
  | .int n => some (.ofInt n)
  | .float x => some x
  | _ => none

/-- A text. -/
def textOfJson? : Json → Option String
  | .str s => some s
  | _ => none

/-- A value that may be `null`. -/
def nullable {α : Type} (read : Json → Option α) : Json → Option (Option α)
  | .null => some none
  | value => (read value).map some

/-- A value that may be missing. -/
def orDefault {α : Type} (default : α) (read : Json → Option α) : Option Json → Option α
  | none => some default
  | some value => read value

/-- The settings with the given values, each of them optional. -/
def ofValues? (since name process root : Option Json) : Option Settings :=
  let defaults : Settings := {}
  match orDefault defaults.sinceTime (nullable numberOfJson?) since,
    orDefault defaults.threadName (nullable textOfJson?) name,
    orDefault defaults.processType textOfJson? process,
    orDefault defaults.rootLabel textOfJson? root with
  | some sinceTime, some threadName, some processType, some rootLabel =>
    some { sinceTime, threadName, processType, rootLabel }
  | _, _, _, _ => none

/-- The settings that a JSON value describes: an object by the names of the fields, or an array in
their order. What is missing keeps its default, unknown fields are ignored, and an array must not be
longer than there are fields. -/
def ofJson? : Json → Option Settings
  | .obj fields =>
    ofValues? (fields.lookup "since_time") (fields.lookup "thread_name")
      (fields.lookup "process_type") (fields.lookup "root_frame_label")
  | .arr items =>
    if 4 < items.length then none else ofValues? items[0]? items[1]? items[2]? items[3]?
  | _ => none

end Settings

end TraceProfile
