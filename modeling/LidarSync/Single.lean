/-!
# Single-precision words

Point records store their components as 32-bit floats. A `Single` is such a component held as its
word, so that copying one keeps every bit, those of a number that is no number included; arithmetic
takes place on doubles.
-/

namespace LidarSync

/-- A 32-bit float, held as its word. -/
structure Single where
  bits : UInt32
deriving DecidableEq, Repr, Inhabited

namespace Single

def zero : Single := ⟨0⟩

def toDouble (x : Single) : Float := (Float32.ofBits x.bits).toFloat

def ofDouble (x : Float) : Single := ⟨x.toFloat32.toBits⟩

def ofInt (n : Int) : Single := ⟨(Float32.ofInt n).toBits⟩

/-- The four bytes of a word, the least significant first. -/
def toBytes (x : Single) : List UInt8 :=
  [x.bits.toUInt8, (x.bits >>> 8).toUInt8, (x.bits >>> 16).toUInt8, (x.bits >>> 24).toUInt8]

/-- The word with the given four bytes, the least significant first. -/
def ofBytes (a b c d : UInt8) : Single :=
  ⟨a.toUInt32 ||| (b.toUInt32 <<< 8) ||| (c.toUInt32 <<< 16) ||| (d.toUInt32 <<< 24)⟩

end Single

end LidarSync
