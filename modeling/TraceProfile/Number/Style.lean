import TraceProfile.Number.Shortest

/-!
# Writing numbers as text

Two places write floating-point numbers: the profile itself and the notices about a recording.
Both show the shortest digits and differ in a few decisions, which one record holds: how far the
point may be from the first digit before an exponent is written, whether a whole number keeps a
`.0`, the words for values that are no finite numbers, and the choice between two equally close
decimals.
-/

namespace TraceProfile.Number

/-- The decisions behind a way to write numbers. -/
structure Style where
  /-- Whether a decimal exponent is written out positionally, without an exponent part. -/
  positional : Int → Bool
  /-- Whether a whole number in positional form ends in `.0`. -/
  pointZero : Bool
  /-- The choice between two shortest decimals that are equally close. -/
  tie : Tie
  /-- The word for a NaN. -/
  nan : String
  /-- The word for the positive infinity. -/
  infinity : String
  /-- The word for the negative infinity. -/
  negativeInfinity : String

/-- The style of the emitted profile: an exponent below `1e-5` and from `1e16` on, `.0` on whole
numbers, and `null` for what is no finite number. -/
def Style.json : Style where
  positional e := -5 ≤ e && e ≤ 15
  pointZero := true
  tie := .even
  nan := "null"
  infinity := "null"
  negativeInfinity := "null"

/-- The style of notices: never an exponent and no `.0`. -/
def Style.plain : Style where
  positional _ := true
  pointZero := false
  tie := .up
  nan := "NaN"
  infinity := "inf"
  negativeInfinity := "-inf"

/-- Positional form: all digits in place, zeros filling the gap to the point. -/
def Scientific.positional (pointZero : Bool) (s : Scientific) : List Char :=
  if s.exponent < 0 then
    '0' :: '.' :: (List.replicate (-s.exponent - 1).toNat '0' ++ s.digits)
  else
    let whole := s.exponent.toNat + 1
    if s.digits.length ≤ whole then
      s.digits ++ List.replicate (whole - s.digits.length) '0'
        ++ (if pointZero then ['.', '0'] else [])
    else s.digits.take whole ++ '.' :: s.digits.drop whole

/-- Exponent form: `d`, or `d.ddd`, then `e`, the sign and the exponent. -/
def Scientific.exponential (s : Scientific) : List Char :=
  let mantissa := match s.digits with
    | d :: e :: rest => d :: '.' :: e :: rest
    | digits => digits
  mantissa ++ 'e' :: (if s.exponent < 0 then '-' else '+') :: digitsOf s.exponent.natAbs

/-- The text of a number in the given style. -/
def Style.render (style : Style) (x : Binary64) : String :=
  if x.isNaN then style.nan
  else if !x.isFinite then
    if x.isNegative then style.negativeInfinity else style.infinity
  else
    let sign := if x.isNegative then ['-'] else []
    let body :=
      if x.magnitude = 0 then '0' :: (if style.pointZero then ['.', '0'] else [])
      else
        let s := shortest style.tie x
        if style.positional s.exponent then s.positional style.pointZero else s.exponential
    String.ofList (sign ++ body)

end TraceProfile.Number
