import TraceProfile.Json.Value
import TraceProfile.Number.Numeral
import TraceProfile.Number.Style

/-!
# JSON text

The compact form has no spaces. The pretty form puts each item and each field on a line of its own,
two spaces deeper than its container, with one space after the colon; an empty container stays
closed. In a string only quotes, backslashes and characters below U+0020 are escaped.

Every function here appends to the text written so far, so that a long text is built in one pass.
-/

namespace TraceProfile.Json

/-- A character as it stands in a string. -/
def escape (c : Char) : List Char :=
  if c = '"' then ['\\', '"']
  else if c = '\\' then ['\\', '\\']
  else if c = '\n' then ['\\', 'n']
  else if c = '\r' then ['\\', 'r']
  else if c = '\t' then ['\\', 't']
  else if c = Char.ofNat 0x08 then ['\\', 'b']
  else if c = Char.ofNat 0x0c then ['\\', 'f']
  else if c.toNat < 0x10 then ['\\', 'u', '0', '0', '0'] ++ Nat.toDigits 16 c.toNat
  else if c.toNat < 0x20 then ['\\', 'u', '0', '0'] ++ Nat.toDigits 16 c.toNat
  else [c]

/-- A string literal. -/
def quote (text : String) : String :=
  String.ofList ('"' :: (text.toList.flatMap escape ++ ['"']))

mutual

/-- Appends a value without spaces. -/
def writeCompact (out : String) : Json → String
  | .null => out ++ "null"
  | .bool b => out ++ (if b then "true" else "false")
  | .int n => out ++ toString n
  | .float x => out ++ Number.Style.json.render x
  | .str s => out ++ quote s
  | .arr items => writeItems (out ++ "[") true items ++ "]"
  | .obj fields => writeFields (out ++ "\x7b") true fields ++ "\x7d"

/-- Appends items, a comma before each that is not the first. -/
def writeItems (out : String) (isFirst : Bool) : List Json → String
  | [] => out
  | item :: rest =>
    writeItems (writeCompact (if isFirst then out else out ++ ",") item) false rest

/-- Appends fields, a comma before each that is not the first. -/
def writeFields (out : String) (isFirst : Bool) : List (String × Json) → String
  | [] => out
  | (key, value) :: rest =>
    let out := (if isFirst then out else out ++ ",") ++ quote key ++ ":"
    writeFields (writeCompact out value) false rest

end

/-- The text of a value without spaces. -/
def compact (value : Json) : String := writeCompact "" value

/-- A line break and the indentation of the given depth. -/
def newline (depth : Nat) : String := String.ofList ('\n' :: List.replicate (2 * depth) ' ')

mutual

/-- Appends a value in the pretty form, inside `depth` containers. -/
def writePretty (depth : Nat) (out : String) : Json → String
  | .null => out ++ "null"
  | .bool b => out ++ (if b then "true" else "false")
  | .int n => out ++ toString n
  | .float x => out ++ Number.Style.json.render x
  | .str s => out ++ quote s
  | .arr [] => out ++ "[]"
  | .arr items => writeItemLines (depth + 1) (out ++ "[") true items ++ newline depth ++ "]"
  | .obj [] => out ++ "\x7b\x7d"
  | .obj fields =>
    writeFieldLines (depth + 1) (out ++ "\x7b") true fields ++ newline depth ++ "\x7d"

/-- Appends items, each on a line of its own. -/
def writeItemLines (depth : Nat) (out : String) (isFirst : Bool) : List Json → String
  | [] => out
  | item :: rest =>
    let out := (if isFirst then out else out ++ ",") ++ newline depth
    writeItemLines depth (writePretty depth out item) false rest

/-- Appends fields, each on a line of its own. -/
def writeFieldLines (depth : Nat) (out : String) (isFirst : Bool) :
    List (String × Json) → String
  | [] => out
  | (key, value) :: rest =>
    let out := (if isFirst then out else out ++ ",") ++ newline depth ++ quote key ++ ": "
    writeFieldLines depth (writePretty depth out value) false rest

end

/-- The text of a value in the pretty form. -/
def pretty (value : Json) : String := writePretty 0 "" value

/-- The text of a value in either form. -/
def render (isPretty : Bool) (value : Json) : String :=
  if isPretty then value.pretty else value.compact

end TraceProfile.Json
