import TraceProfile.Number.Binary64

/-!
# Shortest decimal digits

A finite number is written with the fewest decimal digits that read back as the same number, and
among those with the digits closest to its exact value. The reals that round to `m * 2 ^ q` form
an interval around it; in units of `2 ^ (q - 2)` the number is `4 * m` and the ends lie two units
away, except below a power of two, where the spacing halves and the lower end is one unit away.
The ends belong to the interval exactly when `m` is even.

For one decimal grid after the other, from coarse to fine, the two grid points around the number
are tested against the interval. The first grid with a hit gives the digits; of two hits the
closer one is taken, and `Tie` says what happens halfway between.
-/

namespace TraceProfile.Number

/-- What to do with a number halfway between two shortest decimals. -/
inductive Tie where
  /-- Take the one whose last digit is even. -/
  | even
  /-- Take the larger one. -/
  | up
deriving DecidableEq

/-- A decimal in scientific form, `d.ddd * 10 ^ exponent`: its digits, without zeros at the end. -/
structure Scientific where
  /-- The digits; the point stands after the first. -/
  digits : List Char
  /-- The decimal exponent of the first digit. -/
  exponent : Int
deriving DecidableEq

/-- The interval of reals that round to a number, in units of `2 ^ unit`. -/
structure Interval where
  /-- The lower end. -/
  lower : Nat
  /-- The number itself. -/
  center : Nat
  /-- The upper end. -/
  upper : Nat
  /-- Whether the ends belong to the interval. -/
  closed : Bool
  /-- The binary exponent of the unit. -/
  unit : Int

/-- The interval of reals that round to the finite number `x`. -/
def Interval.around (x : Binary64) : Interval :=
  let m := x.significand
  let narrow := m = Binary64.exponentBit.toNat ∧ x.exponent ≠ -1074
  { lower := 4 * m - (if narrow then 1 else 2)
    center := 4 * m
    upper := 4 * m + 2
    closed := m % 2 == 0
    unit := x.exponent - 2 }

/-- The decimal digits of a natural number. -/
def digitsOf (n : Nat) : List Char := Nat.toDigits 10 n

/-- Whether `10 ^ k ≤ num / den`. -/
def reachesTen (num den : Nat) (k : Int) : Bool := den * tenTo k ≤ num * tenTo (-k)

/-- The largest `k` with `10 ^ k ≤ num / den`, for a positive fraction of the size of a number. The
binary logarithm times `log10 2` is close enough to leave only two candidates. -/
def floorLog10 (num den : Nat) : Int :=
  let k := Int.fdiv (Binary64.floorLog2 num den * 30103) 100000
  if reachesTen num den (k + 1) then k + 1 else k

/-- The multiple of `10 ^ k` next to the center that lies in the interval, as a number of steps. -/
def Interval.hit (i : Interval) (tie : Tie) (k : Int) : Option Nat :=
  let scale := twoTo i.unit * tenTo (-k)
  let step := twoTo (-i.unit) * tenTo k
  let below := i.center * scale / step
  let inside (a b : Nat) : Bool := a < b || (i.closed && a == b)
  let hitBelow := inside (i.lower * scale) (below * step)
  let hitAbove := inside ((below + 1) * step) (i.upper * scale)
  match hitBelow, hitAbove with
  | false, false => none
  | true, false => some below
  | false, true => some (below + 1)
  | true, true =>
    let twice := 2 * (i.center * scale - below * step)
    if twice < step then some below
    else if step < twice then some (below + 1)
    else match tie with
      | .up => some (below + 1)
      | .even => some (if below % 2 = 0 then below else below + 1)

/-- The first hit on the grids `10 ^ k`, `10 ^ (k - 1)`, …, as steps and the exponent of the grid.
Seventeen digits tell any two numbers apart, so the search ends within as many grids. -/
def Interval.search (i : Interval) (tie : Tie) : Nat → Int → Nat × Int
  | 0, k => (i.center * (twoTo i.unit * tenTo (-k)) / (twoTo (-i.unit) * tenTo k), k)
  | grids + 1, k =>
    match i.hit tie k with
    | some steps => (steps, k)
    | none => i.search tie grids (k - 1)

/-- The shortest decimal of a finite number other than zero, without its sign. -/
def shortest (tie : Tie) (x : Binary64) : Scientific :=
  let ratio := x.toRatio
  let found := (Interval.around x).search tie 17 (floorLog10 ratio.1 ratio.2)
  let digits := digitsOf found.1
  { digits := (digits.reverse.dropWhile (· = '0')).reverse
    exponent := found.2 + (digits.length - 1 : Nat) }

end TraceProfile.Number
