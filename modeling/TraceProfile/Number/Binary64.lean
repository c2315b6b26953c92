import TraceProfile.Number.Power

/-!
# Binary64 numbers by their bits

Times, durations and resident sizes are 64-bit binary floating-point numbers. A recording must be
given back bit for bit, so a number is its bit pattern, and every other notion (order, finiteness,
exact value, rounding) is computed from the bits in exact integer arithmetic.

A number that is not a NaN has a *magnitude*, the 63 bits below the sign. Magnitudes are ordered
like the values they stand for, which gives the comparison `Binary64.le` without arithmetic on
fractions. A finite magnitude stands for `significand * 2 ^ exponent`, and `Binary64.ofRatio` is
the way back: the closest number to a fraction, a tie going to the even significand.
-/

namespace TraceProfile

/-- A 64-bit binary floating-point number, identified with its bit pattern. -/
structure Binary64 where
  /-- Sign bit, eleven exponent bits and fifty-two fraction bits, most significant first. -/
  bits : UInt64
deriving DecidableEq, Inhabited

namespace Binary64

open Number

/-- The sign bit. -/
def signBit : UInt64 := 0x8000000000000000

/-- The lowest exponent bit, which is also the highest bit of a full significand. -/
def exponentBit : UInt64 := 0x10000000000000

/-- The magnitude of the infinities; every larger magnitude is a NaN. -/
def infinityMagnitude : UInt64 := 0x7ff0000000000000

/-- The number with the given sign and magnitude. -/
def ofMagnitude (negative : Bool) (magnitude : UInt64) : Binary64 :=
  ⟨if negative then signBit + magnitude else magnitude⟩

/-- The bits below the sign. -/
def magnitude (x : Binary64) : UInt64 := x.bits % signBit

/-- Whether the sign bit is set. -/
def isNegative (x : Binary64) : Bool := signBit ≤ x.bits

/-- Whether the bits stand for no number. -/
def isNaN (x : Binary64) : Bool := infinityMagnitude < x.magnitude

/-- Whether the bits stand for a number other than the infinities. -/
def isFinite (x : Binary64) : Bool := x.magnitude < infinityMagnitude

/-- The place of a number in the order of all numbers, with both zeros in the middle. -/
def orderKey (x : Binary64) : UInt64 :=
  if x.isNegative then signBit - x.magnitude else signBit + x.magnitude

/-- The order of numbers; a NaN is comparable to nothing, itself included. -/
def le (x y : Binary64) : Bool := !x.isNaN && !y.isNaN && x.orderKey ≤ y.orderKey

/-- The integer part of the exact value of a finite number, in units of `2 ^ exponent`. -/
def significand (x : Binary64) : Nat :=
  if x.magnitude < exponentBit then x.magnitude.toNat
  else (x.magnitude % exponentBit + exponentBit).toNat

/-- The binary exponent that goes with `significand`. -/
def exponent (x : Binary64) : Int :=
  if x.magnitude < exponentBit then -1074 else (x.magnitude / exponentBit).toNat - 1075

/-- The absolute value of a finite number as a fraction of natural numbers. -/
def toRatio (x : Binary64) : Nat × Nat :=
  (x.significand * twoTo x.exponent, twoTo (-x.exponent))

/-- The largest `k` with `2 ^ k ≤ num / den`, for a positive fraction. -/
def floorLog2 (num den : Nat) : Int :=
  let k : Int := (num.log2 : Int) - den.log2
  if den * twoTo k ≤ num * twoTo (-k) then k else k - 1

/-- The quotient rounded to the nearest integer, a half going to the even one. -/
def roundHalfEven (num den : Nat) : Nat :=
  let quotient := num / den
  let twice := 2 * (num % den)
  if den < twice || (twice == den && quotient % 2 == 1) then quotient + 1 else quotient

/-- The number closest to `num / den`, a tie going to the even significand, and an infinity from
halfway past the largest finite number on. The integer `quotient` counts units of `2 ^ unit`; a
carry out of its top bit lands in the exponent, where it belongs. -/
def ofRatio (negative : Bool) (num den : Nat) : Binary64 :=
  if num = 0 then ofMagnitude negative 0
  else
    let unit := max (floorLog2 num den - 52) (-1074)
    let quotient := roundHalfEven (num * twoTo (-unit)) (den * twoTo unit)
    let magnitude := (unit + 1074).toNat * exponentBit.toNat + quotient
    ofMagnitude negative (UInt64.ofNat (min magnitude infinityMagnitude.toNat))

/-- The number closest to an integer. -/
def ofInt (n : Int) : Binary64 := ofRatio (n < 0) n.natAbs 1

/-- The infinity of the given sign. -/
def infinity (negative : Bool) : Binary64 := ofMagnitude negative infinityMagnitude

/-- The NaN with only the highest fraction bit set. -/
def nan : Binary64 := ofMagnitude false (infinityMagnitude + exponentBit / 2)

/-- The same number with the other sign. -/
def neg (x : Binary64) : Binary64 := ofMagnitude (!x.isNegative) x.magnitude

end Binary64

end TraceProfile
