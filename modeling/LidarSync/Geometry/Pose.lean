import LidarSync.Scalar

/-!
# Poses

Rigid motions of space: a rotation, held as a quaternion, followed by a shift. `p * q` first
moves by `q`, then by `p`.
-/

namespace LidarSync

/-- A vector in space. -/
structure Vec (α : Type) where
  x : α
  y : α
  z : α
deriving DecidableEq, Repr

/-- A quaternion. Rotations are the ones of length one. -/
structure Quaternion (α : Type) where
  w : α
  i : α
  j : α
  k : α
deriving DecidableEq, Repr

/-- A rigid motion: a rotation, then a shift. -/
structure Pose (α : Type) where
  shift : Vec α
  rotation : Quaternion α
deriving DecidableEq, Repr

variable {α : Type} [Scalar α]

namespace Vec

instance : Add (Vec α) where
  add a b := ⟨a.x + b.x, a.y + b.y, a.z + b.z⟩

instance : Neg (Vec α) where
  neg a := ⟨-a.x, -a.y, -a.z⟩

def origin : Vec α := ⟨0, 0, 0⟩

def scale (a : Vec α) (s : α) : Vec α := ⟨a.x * s, a.y * s, a.z * s⟩

def cross (a b : Vec α) : Vec α :=
  ⟨a.y * b.z - a.z * b.y, a.z * b.x - a.x * b.z, a.x * b.y - a.y * b.x⟩

end Vec

namespace Quaternion

def identity : Quaternion α := ⟨1, 0, 0, 0⟩

def mul (p q : Quaternion α) : Quaternion α where
  w := p.w * q.w - p.i * q.i - p.j * q.j - p.k * q.k
  i := p.w * q.i + p.i * q.w + p.j * q.k - p.k * q.j
  j := p.w * q.j - p.i * q.k + p.j * q.w + p.k * q.i
  k := p.w * q.k + p.i * q.j - p.j * q.i + p.k * q.w

instance : Mul (Quaternion α) := ⟨mul⟩

def conjugate (q : Quaternion α) : Quaternion α := ⟨q.w, -q.i, -q.j, -q.k⟩

def vector (q : Quaternion α) : Vec α := ⟨q.i, q.j, q.k⟩

def rotate (q : Quaternion α) (v : Vec α) : Vec α :=
  let t := (q.vector.cross v).scale 2.0
  t.scale q.w + q.vector.cross t + v

/-- The rotation by an angle about x, then one about y, then one about z. -/
def ofAngles (roll pitch yaw : α) : Quaternion α :=
  let sr := Scalar.sin (roll * 0.5)
  let cr := Scalar.cos (roll * 0.5)
  let sp := Scalar.sin (pitch * 0.5)
  let cp := Scalar.cos (pitch * 0.5)
  let sy := Scalar.sin (yaw * 0.5)
  let cy := Scalar.cos (yaw * 0.5)
  { w := cr * cp * cy + sr * sp * sy
    i := sr * cp * cy - cr * sp * sy
    j := cr * sp * cy + sr * cp * sy
    k := cr * cp * sy - sr * sp * cy }

/-- The angle about z of a rotation written as in `ofAngles`; zero where it cannot be told from the
angle about x. -/
def yaw (q : Quaternion α) : α :=
  let m00 := q.w * q.w + q.i * q.i - q.j * q.j - q.k * q.k
  let m10 := q.w * q.k * 2.0 + q.i * q.j * 2.0
  let m20 := q.i * q.k * 2.0 - q.w * q.j * 2.0
  if Scalar.magnitude m20 < 1 then
    let c := Scalar.cos (-(Scalar.asin m20))
    Scalar.atan2 (m10 / c) (m00 / c)
  else 0

end Quaternion

namespace Pose

def identity : Pose α := ⟨Vec.origin, Quaternion.identity⟩

def apply (p : Pose α) (v : Vec α) : Vec α := p.rotation.rotate v + p.shift

def mul (p q : Pose α) : Pose α :=
  ⟨p.shift + p.rotation.rotate q.shift, p.rotation * q.rotation⟩

instance : Mul (Pose α) := ⟨mul⟩

def inverse (p : Pose α) : Pose α :=
  let r := p.rotation.conjugate
  ⟨r.rotate (-p.shift), r⟩

def numbers (p : Pose α) : List α :=
  [p.shift.x, p.shift.y, p.shift.z,
    p.rotation.w, p.rotation.i, p.rotation.j, p.rotation.k]

def equal (p q : Pose α) : Bool :=
  (p.numbers.zip q.numbers).all fun (a, b) => Scalar.equal a b

end Pose

end LidarSync
