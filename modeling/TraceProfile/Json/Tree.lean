import TraceProfile.Json.Token

/-!
# JSON trees

The second step of reading JSON: `Tree.ofTokens?` arranges tokens into arrays and objects. It takes
one token at a time and keeps the containers that are still open on a stack, so a nesting of any
depth is read. A tree keeps literals as their tokens do and the fields of an object in the order in
which they stand, repeated keys included; whoever uses a tree decides which of its literals have to
stand for something.
-/

namespace TraceProfile.Json

/-- A JSON text by its structure. -/
inductive Tree where
  | null
  /-- A truth value. -/
  | bool (value : Bool)
  /-- A number, as spelled. -/
  | number (literal : Literal)
  /-- A string, by the bytes of its text. -/
  | string (bytes : ByteArray)
  /-- An array. -/
  | array (items : List Tree)
  /-- An object. -/
  | object (fields : List (ByteArray × Tree))

namespace Tree

/-- A container that is still open; what it holds so far is listed last first. -/
inductive Open where
  /-- An array. -/
  | array (items : List Tree)
  /-- An object in which the value of a key comes next. -/
  | object (fields : List (ByteArray × Tree)) (key : ByteArray)

/-- What has to come next. -/
inductive Place where
  /-- A value. -/
  | value
  /-- The first item of an array, or its end. -/
  | item
  /-- A key of an object with the given fields so far, or its end if there are none. -/
  | key (fields : List (ByteArray × Tree))
  /-- The colon after a key. -/
  | colon (fields : List (ByteArray × Tree)) (key : ByteArray)
  /-- Whatever may follow a whole value. -/
  | after (tree : Tree)

/-- Takes the first token of a value. -/
def start? (stack : List Open) : Token → Option (List Open × Place)
  | .null => some (stack, .after .null)
  | .true => some (stack, .after (.bool true))
  | .false => some (stack, .after (.bool false))
  | .number literal => some (stack, .after (.number literal))
  | .string bytes => some (stack, .after (.string bytes))
  | .openArray => some (.array [] :: stack, .item)
  | .openObject => some (stack, .key [])
  | _ => none

/-- Takes the token after a whole value. -/
def finish? (tree : Tree) : List Open → Token → Option (List Open × Place)
  | .array items :: stack, .comma => some (.array (tree :: items) :: stack, .value)
  | .array items :: stack, .closeArray => some (stack, .after (.array (tree :: items).reverse))
  | .object fields key :: stack, .comma => some (stack, .key ((key, tree) :: fields))
  | .object fields key :: stack, .closeObject =>
    some (stack, .after (.object ((key, tree) :: fields).reverse))
  | _, _ => none

/-- Takes one token. -/
def step? (stack : List Open) (place : Place) (token : Token) : Option (List Open × Place) :=
  match place, token with
  | .value, token => start? stack token
  | .item, .closeArray =>
    match stack with
    | .array _ :: stack => some (stack, .after (.array []))
    | _ => none
  | .item, token => start? stack token
  | .key [], .closeObject => some (stack, .after (.object []))
  | .key fields, .string key => some (stack, .colon fields key)
  | .colon fields key, .colon => some (.object fields key :: stack, .value)
  | .after tree, token => finish? tree stack token
  | _, _ => none

/-- Takes all tokens; the last of them must complete the outermost value. -/
def run? : List Open → Place → List Token → Option Tree
  | [], .after tree, [] => some tree
  | _, _, [] => none
  | stack, place, token :: rest =>
    match step? stack place token with
    | some (stack, place) => run? stack place rest
    | none => none

/-- The tree of a sequence of tokens that is one value. -/
def ofTokens? (tokens : List Token) : Option Tree := run? [] .value tokens

/-- The tree of a text, given by its bytes, that holds one value. -/
def parse? (text : List UInt8) : Option Tree := (Token.scan? text).bind ofTokens?

end Tree

end TraceProfile.Json
