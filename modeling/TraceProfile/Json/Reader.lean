import TraceProfile.Json.Tree
import TraceProfile.Json.Value

/-!
# JSON values of trees

What the literals of a tree stand for. The bytes of a string have to be UTF-8. A number without
fraction and exponent is an integer if it fits 64 bits, signed or unsigned; every other number is
floating-point, and one that is too large is refused.

A floating-point number is read in two rounded steps: the digits that fit 64 bits, rounded, are
multiplied or divided by the rounded power of ten. For short decimals both are exact and the result
is the closest number.
-/

namespace TraceProfile.Json

/-- Reads digits onto a value as long as it fits 64 bits: the value, and the digits left over. -/
def absorbDigits : Nat → List Char → Nat × List Char
  | value, [] => (value, [])
  | value, c :: rest =>
    let extended := value * 10 + (c.toNat - '0'.toNat)
    if extended < 0x10000000000000000 then absorbDigits extended rest else (value, c :: rest)

/-- The power of ten closest to `10 ^ k`. -/
def roundedPower (k : Nat) : Binary64 := .ofRatio false (Number.tenTo k) 1

/-- A number that is not negative, times a power of ten; nothing if the result is too large. -/
def scaleUp? (x : Binary64) (k : Nat) : Option Binary64 :=
  if x.magnitude = 0 then some x
  else if 308 < k then none
  else
    let (a, b) := x.toRatio
    let (c, d) := (roundedPower k).toRatio
    let product := Binary64.ofRatio false (a * c) (b * d)
    if product.isFinite then some product else none

/-- A number that is not negative, divided by a power of ten in steps of at most 308 digits. -/
def scaleDown (x : Binary64) (k : Nat) : Binary64 :=
  if x.magnitude = 0 then x
  else
    let (a, b) := x.toRatio
    let (c, d) := (roundedPower (min k 308)).toRatio
    let quotient := Binary64.ofRatio false (a * d) (b * c)
    if k ≤ 308 then quotient else scaleDown quotient (k - 308)
termination_by k

/-- A floating-point number by its leading digits and the exponent of the last of them. -/
def floatOfParts? (negative : Bool) (digits : Nat) (exponent : Int) : Option Binary64 :=
  let x := Binary64.ofRatio false digits 1
  let scaled := if exponent < 0 then some (scaleDown x exponent.natAbs)
    else scaleUp? x exponent.toNat
  scaled.map fun y => if negative then y.neg else y

/-- The value of a number literal. -/
def Literal.value? (literal : Literal) : Option Json :=
  let (digits, skipped) := absorbDigits 0 literal.whole
  match literal.fraction, literal.exponent with
  | none, none =>
    if skipped ≠ [] then (floatOfParts? literal.negative digits skipped.length).map .float
    else if !literal.negative then some (.int digits)
    else if 0 < digits ∧ digits ≤ 0x8000000000000000 then some (.int (-digits))
    else (floatOfParts? true digits 0).map .float
  | fraction, exponent =>
    let decimals := fraction.getD []
    let (digits, unread) := absorbDigits digits decimals
    let place : Int := skipped.length - (decimals.length - unread.length : Nat)
    let shift : Int := match exponent with
      | none => 0
      | some (isNegative, text) =>
        let n := (Number.readNumeral? 10 text).getD 0
        if isNegative then -n else n
    (floatOfParts? literal.negative digits (place + shift)).map .float

mutual

/-- The value of a tree, if every literal in it stands for something. Objects are sorted by key. -/
def Tree.value? : Tree → Option Json
  | .null => some .null
  | .bool b => some (.bool b)
  | .number literal => literal.value?
  | .string bytes => (String.fromUTF8? bytes).map .str
  | .array items => (itemValues? items).map .arr
  | .object fields => (fieldValues? fields).map sorted

/-- The values of the items of an array. -/
def itemValues? : List Tree → Option (List Json)
  | [] => some []
  | item :: rest =>
    match item.value?, itemValues? rest with
    | some value, some values => some (value :: values)
    | _, _ => none

/-- The fields of an object with their values, in the order in which they stand. -/
def fieldValues? : List (ByteArray × Tree) → Option (List (String × Json))
  | [] => some []
  | (key, tree) :: rest =>
    match String.fromUTF8? key, tree.value?, fieldValues? rest with
    | some key, some value, some fields => some ((key, value) :: fields)
    | _, _, _ => none

end

/-- The value that a text, given by its bytes, holds. -/
def parse? (text : List UInt8) : Option Json := (Tree.parse? text).bind Tree.value?

end TraceProfile.Json
