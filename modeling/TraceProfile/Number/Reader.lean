import TraceProfile.Number.Binary64
import TraceProfile.Number.Numeral

/-!
# Reading floating-point numbers

A decimal is read by rounding its exact value once, however many digits it has. The accepted text
is an optional sign before `inf`, `infinity` or `nan` in any case, or before digits with an
optional point among or around them and an optional exponent; at least one digit stands before
the exponent, and at least one in it.
-/

namespace TraceProfile.Number

/-- The number closest to `digits * 10 ^ exponent`. Values far outside the range are settled by
the position of their first digit, so that no huge power is formed. -/
def ofDecimal (negative : Bool) (digits : Nat) (exponent : Int) : Binary64 :=
  let top := exponent + (Nat.toDigits 10 digits).length
  if digits = 0 ∨ top < -330 then .ofRatio negative 0 1
  else if 310 < top then .infinity negative
  else .ofRatio negative (digits * tenTo exponent) (tenTo (-exponent))

/-- Reads an exponent part: nothing, or a letter `e` before a signed numeral. -/
def readExponent? : List Char → Option Int
  | [] => some 0
  | c :: rest => if c = 'e' ∨ c = 'E' then readSigned? rest else none

/-- Reads an unsigned decimal: digits, a point and more digits, and an exponent part. -/
def readDecimal? (negative : Bool) (text : List Char) : Option Binary64 :=
  let (whole, rest) := text.span Char.isDigit
  let (fraction, rest) := match rest with
    | '.' :: more => more.span Char.isDigit
    | rest => ([], rest)
  match readNumeral? 10 (whole ++ fraction), readExponent? rest with
  | some digits, some exponent => some (ofDecimal negative digits (exponent - fraction.length))
  | _, _ => none

/-- Reads what follows the sign of a number. -/
def readMagnitude? (negative : Bool) (text : List Char) : Option Binary64 :=
  let word := text.map Char.toLower
  if word = "nan".toList then some (if negative then Binary64.nan.neg else .nan)
  else if word = "inf".toList ∨ word = "infinity".toList then some (.infinity negative)
  else readDecimal? negative text

/-- Reads a floating-point number. -/
def readBinary64? : List Char → Option Binary64
  | '-' :: rest => readMagnitude? true rest
  | '+' :: rest => readMagnitude? false rest
  | text => readMagnitude? false text

end TraceProfile.Number
