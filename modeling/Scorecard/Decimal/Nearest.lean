import Scorecard.Decimal.Binary

/-!
Decimals and the double-precision number nearest to each. Far outside the range of the numbers the
answer is known from the count of digits alone, and no power of ten is formed.
-/
namespace Scorecard

/-- The decimal `coefficient * 10 ^ exponent`. -/
structure Decimal where
  coefficient : Nat
  exponent : Int
deriving DecidableEq

namespace Decimal

def numerator (d : Decimal) : Nat := d.coefficient * Nat.pow 10 d.exponent.toNat

def denominator (d : Decimal) : Nat := Nat.pow 10 (-d.exponent).toNat

/-- The place of the decimal's leading digit, one for the units. -/
def magnitude (d : Decimal) : Int := (Nat.toDigits 10 d.coefficient).length + d.exponent

def nearest (d : Decimal) : Nat :=
  if d.coefficient = 0 ∨ d.magnitude < -330 then 0
  else if 310 < d.magnitude then infinityRank
  else nearestRank d.numerator d.denominator

/-- The power of ten, rounded to the nearest number. -/
def powerOfTen (exponent : Nat) : Float := ofRank false (nearest ⟨1, exponent⟩)

end Decimal

end Scorecard
