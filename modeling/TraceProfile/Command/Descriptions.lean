import TraceProfile.Json.Reader
import TraceProfile.Reading.Counter

/-!
# The file of counter descriptions

The file is a JSON object that maps the ids of counters to their descriptions. An id is a decimal
number, or a hexadecimal one after `0x`. A description is an object with a name, a category and a
description, each of them exactly once, or an array of these three; what else an object holds is
skipped and need not stand for anything, not even be UTF-8.
-/

namespace TraceProfile

/-- The counter id that a text stands for: 64 bits, without a sign other than a plus. -/
def readCounterId? (text : List Char) : Option UInt64 :=
  let value := match text with
    | '0' :: 'x' :: digits => Number.readUnsigned? 16 digits
    | digits => Number.readUnsigned? 10 digits
  match value with
  | some n => if n < 0x10000000000000000 then some (UInt64.ofNat n) else none
  | none => none

namespace CounterDescription

/-- The text of a tree that is a string. -/
def textOfTree? : Json.Tree → Option String
  | .string bytes => String.fromUTF8? bytes
  | _ => none

/-- A description of which the fields read so far are known. -/
structure Draft where
  /-- The name. -/
  name : Option String := none
  /-- The category. -/
  category : Option String := none
  /-- What the counter counts. -/
  description : Option String := none

/-- Sets a field that has not been set before. -/
def setOnce (field : Option String) (tree : Json.Tree) : Option (Option String) :=
  match field with
  | some _ => none
  | none => (textOfTree? tree).map some

/-- Takes one field of a description. -/
def Draft.add? (draft : Draft) (key : String) (tree : Json.Tree) : Option Draft :=
  if key = "name" then (setOnce draft.name tree).map fun name => { draft with name }
  else if key = "category" then
    (setOnce draft.category tree).map fun category => { draft with category }
  else if key = "description" then
    (setOnce draft.description tree).map fun description => { draft with description }
  else some draft

/-- Takes the fields of a description in order. -/
def Draft.addAll? (draft : Draft) : List (ByteArray × Json.Tree) → Option Draft
  | [] => some draft
  | (key, tree) :: rest =>
    match String.fromUTF8? key with
    | some key => (draft.add? key tree).bind fun draft => draft.addAll? rest
    | none => none

/-- The description that a tree stands for. -/
def ofTree? : Json.Tree → Option CounterDescription
  | .object fields =>
    match Draft.addAll? {} fields with
    | some { name := some name, category := some category, description := some description } =>
      some { name, category, description }
    | _ => none
  | .array [name, category, description] =>
    match textOfTree? name, textOfTree? category, textOfTree? description with
    | some name, some category, some description => some { name, category, description }
    | _, _, _ => none
  | _ => none

end CounterDescription

/-- Descriptions under the texts that are to be the ids of their counters. -/
abbrev DescriptionFile := List (String × CounterDescription)

namespace DescriptionFile

/-- The descriptions of the fields of an object. -/
def ofFields? : List (ByteArray × Json.Tree) → Option DescriptionFile
  | [] => some []
  | (key, tree) :: rest =>
    match String.fromUTF8? key, CounterDescription.ofTree? tree, ofFields? rest with
    | some key, some description, some more => some ((key, description) :: more)
    | _, _, _ => none

/-- The descriptions in a file with the given bytes. -/
def parse? (bytes : ByteArray) : Option DescriptionFile :=
  match Json.Tree.parse? bytes.toList with
  | some (.object fields) => ofFields? fields
  | _ => none

/-- The descriptions by the id of the counter. Of two descriptions for one counter the later one
counts, and what stands under a key that is no counter id does not count. -/
def index (file : DescriptionFile) : Std.TreeMap UInt64 CounterDescription :=
  .ofList <| file.filterMap fun (key, description) =>
    (readCounterId? key.toList).map fun id => (id, description)

/-- The keys that are no counter ids. -/
def invalidIds (file : DescriptionFile) : List String :=
  let invalid := (file.map Prod.fst).filter fun key => (readCounterId? key.toList).isNone
  (Interner.ofList invalid).toList

end DescriptionFile

end TraceProfile
