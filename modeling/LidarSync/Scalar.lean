/-!
# The numbers that motion is computed with

Poses, velocity histories, corrections and running statistics are written over any type of numbers
with the operations of `Scalar`. The program computes with doubles; what the formulas mean is
clearest over the reals.
-/

namespace LidarSync

/-- Numbers with the operations that motion and statistics need. -/
class Scalar (α : Type) extends Add α, Sub α, Mul α, Div α, Neg α, Zero α, One α, OfScientific α,
    LT α, LE α where
  decidableLt : DecidableLT α
  decidableLe : DecidableLE α
  equal : α → α → Bool
  /-- A total order on all values, which on numbers is the usual one. -/
  upTo : α → α → Bool
  ofNat : Nat → α
  sqrt : α → α
  sin : α → α
  cos : α → α
  asin : α → α
  /-- The angle of the vector whose second and first coordinates are given. -/
  atan2 : α → α → α

namespace Scalar

variable {α : Type} [Scalar α]

instance : DecidableLT α := decidableLt
instance : DecidableLE α := decidableLe

/-- The smaller of two values; one that is no number does not count. -/
def least (a b : α) : α := if a ≤ a then (if b < a then b else a) else b

/-- The larger of two values; one that is no number does not count. -/
def greatest (a b : α) : α := if a ≤ a then (if a < b then b else a) else b

def magnitude (a : α) : α := if a < 0 then -a else a

end Scalar

/-- The place of a double in the total order of all doubles: negative ones descend with their word,
and what is no number comes last. -/
def floatRank (x : Float) : Int :=
  let bits : Int := x.toBits.toNat
  if bits < 0x8000000000000000 then bits else 0x7FFFFFFFFFFFFFFF - bits

instance : Scalar Float where
  zero := 0
  one := 1
  decidableLt := inferInstance
  decidableLe := inferInstance
  equal a b := a == b
  upTo a b := floatRank a ≤ floatRank b
  ofNat := Float.ofNat
  sqrt := Float.sqrt
  sin := Float.sin
  cos := Float.cos
  asin := Float.asin
  atan2 := Float.atan2

end LidarSync
