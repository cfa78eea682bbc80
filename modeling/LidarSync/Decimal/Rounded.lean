import LidarSync.Decimal.Basic
import LidarSync.Decimal.Binary

/-!
# Rounding to a decimal place

The exact value of a float rounded to a multiple of a power of ten, a half going to the even
neighbour.
-/

namespace LidarSync.Decimal

/-- The natural number nearest to a quotient; of two equally near ones the even one. -/
def roundDiv (numerator denominator : Nat) : Nat :=
  let low := numerator / denominator
  let rest := numerator % denominator
  if 2 * rest < denominator then low
  else if denominator < 2 * rest then low + 1
  else if low % 2 = 0 then low
  else low + 1

namespace Magnitude

/-- The multiple of `10 ^ place` nearest to the magnitude. -/
def roundTo (v : Magnitude) (place : Int) : Decimal :=
  let r := v.inUnits place
  ⟨roundDiv r.numerator r.denominator, place⟩

def significant (v : Magnitude) (digits : Nat) : Decimal :=
  if v.mantissa = 0 then ⟨0, 0⟩
  else (v.roundTo (v.leading - digits + 1)).normalize

end Magnitude

end LidarSync.Decimal
