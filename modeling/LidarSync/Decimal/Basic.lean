/-!
# Decimal numbers

`Decimal` is a natural coefficient with a power of ten. Digits are read from and written to text
elsewhere; here are the number itself, its canonical form without trailing zeros, and its nearest
double.
-/

namespace LidarSync

def twoTo (n : Nat) : Nat := Nat.pow 2 n

def tenTo (n : Nat) : Nat := Nat.pow 10 n

/-- The number `coefficient · 10 ^ exponent`. -/
structure Decimal where
  coefficient : Nat
  exponent : Int
deriving DecidableEq, Repr, Inhabited

namespace Decimal

/-- How many decimal digits a natural number has; zero has one. -/
def digitCount (n : Nat) : Nat := (toString n).length

/-- The exponent of the leading digit, as scientific notation shows it. -/
def leading (d : Decimal) : Int := d.exponent + digitCount d.coefficient - 1

/-- Moves the zeros at the end of the coefficient into the exponent; zero itself is `0 · 10 ^ 0`. -/
def normalize (d : Decimal) : Decimal :=
  if h : d.coefficient = 0 then ⟨0, 0⟩
  else if d.coefficient % 10 = 0 then normalize ⟨d.coefficient / 10, d.exponent + 1⟩
  else d
termination_by d.coefficient
decreasing_by exact Nat.div_lt_self (Nat.pos_of_ne_zero h) (by decide)

/-- The double nearest to the number. Numbers far outside the range of doubles are settled by their
leading digit, so that no power of ten grows with a written exponent. -/
def toDouble (d : Decimal) : Float :=
  if d.coefficient = 0 then 0
  else if d.leading > 400 then 1 / 0
  else if d.leading < -400 then 0
  else if 0 ≤ d.exponent then Float.ofScientific d.coefficient false d.exponent.toNat
  else Float.ofScientific d.coefficient true (-d.exponent).toNat

end Decimal

end LidarSync
