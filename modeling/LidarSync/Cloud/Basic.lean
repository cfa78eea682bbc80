import LidarSync.Single

/-!
# Point clouds

A cloud is a run of point records of one length, each with named 32-bit fields at fixed offsets. The
library works on the packed layout: the fields x, y, z and intensity, one after the other, in
records of sixteen bytes. `Cloud.ofPoints` and `Cloud.points` pass between packed clouds and lists
of points; `Cloud.packed` brings any cloud into the packed layout.
-/

namespace LidarSync

/-- When and in which frame the points of a cloud were measured. -/
structure Header where
  stamp : Float
  frame : String

/-- A named 32-bit field, at an offset in the record of a point. -/
structure Field where
  name : String
  offset : Nat
deriving DecidableEq, Repr

/-- A point of a packed cloud. -/
structure Point where
  x : Single
  y : Single
  z : Single
  intensity : Single
deriving DecidableEq, Repr

/-- A cloud of points as a source delivers it. Nothing is promised about its payload. -/
structure Cloud where
  header : Header
  /-- How many records the payload should hold. -/
  count : Nat
  /-- The length of a record in bytes. -/
  stride : Nat
  fields : List Field
  payload : List UInt8

/-- Why a cloud cannot be read. -/
inductive CloudFault where
  | notPacked
  | missingField (name : String)
  | fieldBeyondStride (field : Field) (stride : Nat)
  | shortPayload (bytes count stride : Nat)
  | shortRecord
deriving DecidableEq, Repr

def CloudFault.message : CloudFault → String
  | notPacked => "cloud is not in packed xyzi layout"
  | missingField name => s!"missing field '{name}'"
  | fieldBeyondStride field stride =>
    s!"field '{field.name}' at offset {field.offset} exceeds stride {stride}"
  | shortPayload bytes count stride =>
    s!"payload has {bytes} bytes, {count} points of stride {stride} need {count * stride}"
  | shortRecord => "point record shorter than stride"

namespace Point

def toBytes (p : Point) : List UInt8 :=
  p.x.toBytes ++ p.y.toBytes ++ p.z.toBytes ++ p.intensity.toBytes

end Point

namespace Cloud

def stamp (c : Cloud) : Float := c.header.stamp

def frame (c : Cloud) : String := c.header.frame

def packedStride : Nat := 16

def packedFields : List Field := [⟨"x", 0⟩, ⟨"y", 4⟩, ⟨"z", 8⟩, ⟨"intensity", 12⟩]

/-- Packs points into a cloud. The count is a 32-bit word. -/
def ofPoints (stamp : Float) (frame : String) (ps : List Point) : Cloud where
  header := ⟨stamp, frame⟩
  count := ps.length % 0x100000000
  stride := packedStride
  fields := packedFields
  payload := ps.flatMap Point.toBytes

def isPacked (c : Cloud) : Bool := c.stride == packedStride && c.fields == packedFields

/-- How many bytes the records of a cloud take, when the payload has that many. -/
def extent (c : Cloud) : Except CloudFault Nat :=
  if c.stride = 0 ∨ c.payload.length < c.count * c.stride then
    .error (.shortPayload c.payload.length c.count c.stride)
  else .ok (c.count * c.stride)

/-- The points that bytes of packed records hold; a record cut off at the end is left out. -/
def pointsOf : List UInt8 → List Point
  | a₀ :: a₁ :: a₂ :: a₃ :: b₀ :: b₁ :: b₂ :: b₃ :: c₀ :: c₁ :: c₂ :: c₃ ::
      d₀ :: d₁ :: d₂ :: d₃ :: rest =>
    ⟨.ofBytes a₀ a₁ a₂ a₃, .ofBytes b₀ b₁ b₂ b₃, .ofBytes c₀ c₁ c₂ c₃, .ofBytes d₀ d₁ d₂ d₃⟩
      :: pointsOf rest
  | _ => []

def points (c : Cloud) : Except CloudFault (List Point) :=
  if c.isPacked then c.extent.map fun n => pointsOf (c.payload.take n)
  else .error .notPacked

end Cloud

end LidarSync
