import LidarSync.Decimal.Basic
import LidarSync.Decimal.Binary

/-!
# The fewest digits that read back

The reals that round to a float form an interval around it. `Magnitude.shortest` looks for a point
of that interval on the decimal grids of one, two, three, … significant digits and takes the first
grid that has one: if a grid has a point in the interval at all, then one of the two neighbours of
the value on that grid is in it, so two candidates a grid are enough. Of two the nearer wins.
-/

namespace LidarSync.Decimal

/-- Which of two equally near candidates is taken. -/
inductive Tie where
  | up
  | toEven
deriving DecidableEq, Repr

namespace Magnitude

/-- Whether `candidate · 10 ^ place` rounds to the magnitude. The ends of the interval lie half a
step up and half a step down, a quarter when the magnitude is narrow, and belong to it when the
mantissa is even. -/
def readsBack (v : Magnitude) (place : Int) (candidate : Nat) : Bool :=
  let above : Magnitude := ⟨4 * v.mantissa + 2, v.exponent - 2, false⟩
  let below : Magnitude := ⟨4 * v.mantissa - (if v.narrow then 1 else 2), v.exponent - 2, false⟩
  let top := above.inUnits place
  let bottom := below.inUnits place
  if v.mantissa % 2 = 0 then
    bottom.numerator ≤ candidate * bottom.denominator
      && candidate * top.denominator ≤ top.numerator
  else
    bottom.numerator < candidate * bottom.denominator
      && candidate * top.denominator < top.numerator

/-- The nearer of the neighbours of the magnitude on the grid of `10 ^ place` that read back. -/
def onGrid (v : Magnitude) (tie : Tie) (place : Int) : Option Nat :=
  let r := v.inUnits place
  let low := r.numerator / r.denominator
  let rest := r.numerator % r.denominator
  if rest = 0 then some low
  else match v.readsBack place low, v.readsBack place (low + 1) with
    | false, false => none
    | true, false => some low
    | false, true => some (low + 1)
    | true, true =>
      if 2 * rest < r.denominator then some low
      else if r.denominator < 2 * rest then some (low + 1)
      else match tie with
        | .up => some (low + 1)
        | .toEven => some (if low % 2 = 0 then low else low + 1)

/-- Tries the grids of `place`, `place - 1`, … in turn. -/
def shortestFrom (v : Magnitude) (tie : Tie) (place : Int) : Nat → Decimal
  | 0 => ⟨(v.inUnits place).numerator / (v.inUnits place).denominator, place⟩
  | tries + 1 =>
    match v.onGrid tie place with
    | some c => ⟨c, place⟩
    | none => shortestFrom v tie (place - 1) tries

/-- The fewest digits that read back as the magnitude; seventeen always suffice. -/
def shortest (v : Magnitude) (tie : Tie) : Decimal :=
  if v.mantissa = 0 then ⟨0, 0⟩
  else (v.shortestFrom tie v.leading 18).normalize

end Magnitude

end LidarSync.Decimal
