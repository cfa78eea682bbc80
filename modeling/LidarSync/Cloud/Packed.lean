import LidarSync.Cloud.Basic

/-!
# Bringing clouds into the packed layout

`Cloud.packed` answers with a packed cloud that has the points of the given one. Coordinates have to
be there; a missing intensity is zero. A cloud that is packed already is left as it is, surplus
payload included.
-/

namespace LidarSync.Cloud

def field? (c : Cloud) (name : String) : Option Field := c.fields.find? (·.name == name)

/-- The offset of a field that lies within the record. -/
def offset (c : Cloud) (name : String) : Except CloudFault Nat :=
  match c.field? name with
  | none => .error (.missingField name)
  | some f =>
    if c.stride < f.offset + 4 then .error (.fieldBeyondStride f c.stride) else .ok f.offset

def offset? (c : Cloud) (name : String) : Except CloudFault (Option Nat) :=
  match c.field? name with
  | none => .ok none
  | some _ => (c.offset name).map some

def componentAt (record : List UInt8) (offset : Nat) : Option Single :=
  match record.drop offset with
  | a :: b :: c :: d :: _ => some (.ofBytes a b c d)
  | _ => none

/-- Where the components of a point lie in a record. -/
structure Offsets where
  x : Nat
  y : Nat
  z : Nat
  intensity : Option Nat

def Offsets.point? (o : Offsets) (record : List UInt8) : Option Point := do
  let x ← componentAt record o.x
  let y ← componentAt record o.y
  let z ← componentAt record o.z
  let intensity ← match o.intensity with
    | some i => componentAt record i
    | none => some Single.zero
  return ⟨x, y, z, intensity⟩

def records (stride : Nat) : Nat → List UInt8 → List (List UInt8)
  | 0, _ => []
  | count + 1, bytes => bytes.take stride :: records stride count (bytes.drop stride)

/-- Where the components of the points of a cloud lie. -/
def offsets (c : Cloud) : Except CloudFault Offsets := do
  let x ← c.offset "x"
  let y ← c.offset "y"
  let z ← c.offset "z"
  let intensity ← c.offset? "intensity"
  return ⟨x, y, z, intensity⟩

def pointsAt (o : Offsets) (rs : List (List UInt8)) : Except CloudFault (List Point) :=
  match rs.mapM o.point? with
  | some ps => .ok ps
  | none => .error .shortRecord

def packed (c : Cloud) : Except CloudFault Cloud := do
  let _ ← c.extent
  if c.isPacked then return c
  let o ← c.offsets
  let ps ← pointsAt o (records c.stride c.count c.payload)
  return ofPoints c.stamp c.frame ps

end LidarSync.Cloud
