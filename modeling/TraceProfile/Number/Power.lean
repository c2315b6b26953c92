/-!
# Powers

A fraction is scaled by a power of two or ten on one of its sides, according to the sign of the
exponent. Each function below is the factor for one side, which is one on the other.
-/

namespace TraceProfile.Number

/-- Two to the given exponent, or one if the exponent is negative. -/
def twoTo (exponent : Int) : Nat := Nat.pow 2 exponent.toNat

/-- Ten to the given exponent, or one if the exponent is negative. -/
def tenTo (exponent : Int) : Nat := Nat.pow 10 exponent.toNat

end TraceProfile.Number
