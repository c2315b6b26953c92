/-!
# Numerals

Text forms of integers and the readers that accept them. A numeral is a nonempty run of digits of
its base; leading zeros are allowed and the value is unbounded, so each caller states its own
range.
-/

namespace TraceProfile.Number

/-- The value of a digit in base 16 or a smaller base; letters count in either case. -/
def digitValue? (base : Nat) (c : Char) : Option Nat :=
  let value :=
    if '0' ≤ c ∧ c ≤ '9' then c.toNat - '0'.toNat
    else if 'a' ≤ c ∧ c ≤ 'f' then c.toNat - 'a'.toNat + 10
    else if 'A' ≤ c ∧ c ≤ 'F' then c.toNat - 'A'.toNat + 10
    else 16
  if value < base then some value else none

/-- Reads the digits that are left onto the value of those before them. -/
def extendNumeral? (base : Nat) : Nat → List Char → Option Nat
  | value, [] => some value
  | value, c :: rest =>
    match digitValue? base c with
    | some digit => extendNumeral? base (value * base + digit) rest
    | none => none

/-- The value of a numeral: one or more digits. -/
def readNumeral? (base : Nat) (text : List Char) : Option Nat :=
  if text.isEmpty then none else extendNumeral? base 0 text

/-- The value of a numeral that may start with a plus sign. -/
def readUnsigned? (base : Nat) : List Char → Option Nat
  | '+' :: rest => readNumeral? base rest
  | text => readNumeral? base text

/-- The value of a decimal numeral that may start with a sign. -/
def readSigned? : List Char → Option Int
  | '-' :: rest => (readNumeral? 10 rest).map fun n => -(n : Int)
  | text => (readUnsigned? 10 text).map Int.ofNat

/-- The lower-case hexadecimal numeral of a number. -/
def hex (n : Nat) : String := String.ofList (Nat.toDigits 16 n)

/-- The hexadecimal numeral of a number after the mark `0x`, as addresses and ids are shown. -/
def hexAddress (n : Nat) : String := "0x" ++ hex n

end TraceProfile.Number
