import TraceProfile.Number.Binary64
import Std.Data.TreeMap

/-!
# JSON values

The emitted profile is a JSON value, and so is the data that markers and compiled code carry along.
Integers keep their full range; other numbers are floating-point. The fields of an object keep
their order: a profile fixes the order of its keys, and free data is kept sorted by key.
-/

namespace TraceProfile

/-- A JSON value. -/
inductive Json where
  /-- The absent value. -/
  | null
  /-- A truth value. -/
  | bool (value : Bool)
  /-- A number without fraction and exponent. -/
  | int (value : Int)
  /-- A floating-point number; one that is not finite is written as `null`. -/
  | float (value : Binary64)
  /-- A text. -/
  | str (value : String)
  /-- An array. -/
  | arr (items : List Json)
  /-- An object, its fields in order. -/
  | obj (fields : List (String × Json))
deriving Inhabited

namespace Json

/-- A natural number. -/
def nat (n : Nat) : Json := .int n

/-- The value under `f`, or `null`. -/
def ofOption {α : Type} (f : α → Json) : Option α → Json
  | some a => f a
  | none => .null

/-- The value of a field of an object. -/
def field? (key : String) : Json → Option Json
  | .obj fields => fields.lookup key
  | _ => none

/-- The object with the given fields sorted by key; of two equal keys the later one counts. Keys are
compared by code points, which is the order of their UTF-8 bytes. -/
def sorted (fields : List (String × Json)) : Json := .obj (Std.TreeMap.ofList fields).toList

end Json

end TraceProfile
