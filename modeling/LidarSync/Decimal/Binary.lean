import LidarSync.Decimal.Basic

/-!
# Binary floating-point words

The two interchange formats of the library, and what a word of one stands for: `sign`,
`mantissa · 2 ^ exponent`, an infinity, or no number. Everything that prints or rounds a float
starts from `WordFormat.decode`, and so works on natural numbers only.
-/

namespace LidarSync.Decimal

/-- The widths of the two magnitude fields of a floating-point word. -/
structure WordFormat where
  fractionBits : Nat
  exponentBits : Nat

def WordFormat.double : WordFormat := ⟨52, 11⟩

def WordFormat.single : WordFormat := ⟨23, 8⟩

/-- The magnitude `mantissa · 2 ^ exponent`. It is `narrow` when the next word below it is only
half as far away as the next one above. -/
structure Magnitude where
  mantissa : Nat
  exponent : Int
  narrow : Bool
deriving DecidableEq, Repr

/-- What a floating-point word stands for. -/
inductive Word where
  | nan
  | infinite (negative : Bool)
  | finite (negative : Bool) (magnitude : Magnitude)
deriving DecidableEq, Repr

namespace WordFormat

/-- The exponent of the last place of the smallest numbers. -/
def lowest (f : WordFormat) : Int := 2 - twoTo (f.exponentBits - 1) - f.fractionBits

def decode (f : WordFormat) (bits : Nat) : Word :=
  let fraction := bits % twoTo f.fractionBits
  let biased := bits / twoTo f.fractionBits % twoTo f.exponentBits
  let negative := bits / twoTo (f.fractionBits + f.exponentBits) % 2 == 1
  if biased = twoTo f.exponentBits - 1 then
    if fraction = 0 then .infinite negative else .nan
  else if biased = 0 then
    .finite negative ⟨fraction, f.lowest, false⟩
  else
    .finite negative
      ⟨twoTo f.fractionBits + fraction, f.lowest + biased - 1, fraction = 0 ∧ 1 < biased⟩

end WordFormat

def Word.ofDouble (x : Float) : Word := WordFormat.double.decode x.toBits.toNat

namespace Magnitude

/-- A quotient of natural numbers. -/
structure Ratio where
  numerator : Nat
  denominator : Nat

def inUnits (v : Magnitude) (place : Int) : Ratio where
  numerator := v.mantissa * twoTo v.exponent.toNat * tenTo (-place).toNat
  denominator := twoTo (-v.exponent).toNat * tenTo place.toNat

/-- The exponent of the leading decimal digit of a magnitude above zero. -/
def leading (v : Magnitude) : Int :=
  let r := v.inUnits 0
  if r.denominator ≤ r.numerator then
    digitCount (r.numerator / r.denominator) - 1
  else
    -digitCount ((r.denominator - 1) / r.numerator)

end Magnitude

end LidarSync.Decimal
