import LidarSync.Cloud.Packed
import LidarSync.Geometry.FrameGraph
import LidarSync.Proofs.Outcome
import Mathlib.Tactic.Common

/-!
# The points of a packed cloud

Packing points and reading them back gives the same points, as many of them as the count of the cloud
has room for (`Cloud.points_ofPoints`). So a cloud that is moved has the points of the cloud that it
was, each moved, in their order (`Cloud.points_ofPoints_moved`).
-/

namespace LidarSync

theorem Single.ofBytes_toBytes (x : Single) :
    ofBytes x.bits.toUInt8 (x.bits >>> 8).toUInt8 (x.bits >>> 16).toUInt8 (x.bits >>> 24).toUInt8
      = x := by
  obtain ⟨word⟩ := x
  unfold ofBytes
  congr 1
  apply UInt32.eq_of_toBitVec_eq
  apply BitVec.eq_of_getLsbD_eq
  intro i hi
  simp only [UInt32.toBitVec_or, UInt32.toBitVec_shiftLeft, UInt8.toBitVec_toUInt32,
    UInt32.toBitVec_toUInt8, UInt32.toBitVec_shiftRight, BitVec.getLsbD_or]
  simp only [BitVec.getLsbD_setWidth, UInt32.toBitVec_ofNat, BitVec.ofNat_eq_ofNat,
    BitVec.reduceMod, BitVec.ushiftRight_eq', BitVec.toNat_ofNat, Nat.reducePow, Nat.reduceMod,
    BitVec.shiftLeft_eq', BitVec.getLsbD_shiftLeft, BitVec.getLsbD_ushiftRight]
  grind

theorem Point.length_toBytes (p : Point) : p.toBytes.length = 16 := rfl

namespace Cloud

theorem pointsOf_toBytes (p : Point) (rest : List UInt8) :
    pointsOf (p.toBytes ++ rest) = p :: pointsOf rest := by
  obtain ⟨x, y, z, intensity⟩ := p
  have hx := x.ofBytes_toBytes
  have hy := y.ofBytes_toBytes
  have hz := z.ofBytes_toBytes
  have hintensity := intensity.ofBytes_toBytes
  change (⟨_, _, _, _⟩ : Point) :: pointsOf rest = _
  rw [hx, hy, hz, hintensity]

theorem pointsOf_flatMap (ps : List Point) : pointsOf (ps.flatMap Point.toBytes) = ps := by
  induction ps with
  | nil => rfl
  | cons p ps ih => rw [List.flatMap_cons, pointsOf_toBytes, ih]

theorem length_flatMap_toBytes (ps : List Point) :
    (ps.flatMap Point.toBytes).length = ps.length * packedStride := by
  induction ps with
  | nil => rfl
  | cons p ps ih =>
    rw [List.flatMap_cons, List.length_append, Point.length_toBytes, ih, List.length_cons]
    unfold packedStride
    omega

/-- As many bytes as some of the records take are the bytes of these records. -/
theorem take_flatMap_toBytes (ps : List Point) (n : Nat) :
    (ps.flatMap Point.toBytes).take (n * packedStride) = (ps.take n).flatMap Point.toBytes := by
  induction ps generalizing n with
  | nil => simp
  | cons p ps ih =>
    cases n with
    | zero => simp
    | succ n =>
      have hlength : (n + 1) * packedStride = p.toBytes.length + n * packedStride := by
        rw [Point.length_toBytes]
        unfold packedStride
        omega
      rw [List.take_succ_cons, List.flatMap_cons, List.flatMap_cons, hlength,
        List.take_length_add_append, ih]

/-- The points of a packed cloud are those that were packed, as far as the count goes. -/
theorem points_ofPoints (header : Header) (stamp : Float) (frame : String) (ps : List Point) :
    points { ofPoints stamp frame ps with header } = .ok (ps.take (ps.length % 0x100000000)) := by
  have hpacked : isPacked { ofPoints stamp frame ps with header } = true := rfl
  have hbytes : (ps.flatMap Point.toBytes).length = ps.length * packedStride :=
    length_flatMap_toBytes ps
  have hextent : extent { ofPoints stamp frame ps with header }
      = .ok (ps.length % 0x100000000 * packedStride) := by
    unfold extent ofPoints
    dsimp only
    rw [if_neg]
    rw [hbytes]
    unfold packedStride
    omega
  unfold points
  rw [if_pos hpacked, hextent]
  change Except.ok (pointsOf ((ps.flatMap Point.toBytes).take _)) = _
  rw [take_flatMap_toBytes, pointsOf_flatMap]

/-- The points of a cloud that is packed from moved points are the moved ones. -/
theorem points_ofPoints_moved (header : Header) (stamp : Float) (frame : String) (ps : List Point)
    (p : Pose Float) :
    points { ofPoints stamp frame (ps.map (Point.moved p)) with header }
      = .ok ((ps.take (ps.length % 0x100000000)).map (Point.moved p)) := by
  rw [points_ofPoints, List.length_map, List.map_take]

/-- Bringing a cloud into the packed layout leaves its stamp. -/
theorem stamp_packed {c packed : Cloud} (h : c.packed = .ok packed) : packed.stamp = c.stamp := by
  unfold Cloud.packed at h
  obtain ⟨bytes, -, h⟩ := bind_eq_ok.1 h
  split at h
  · cases h
    rfl
  · obtain ⟨o, -, h⟩ := bind_eq_ok.1 h
    obtain ⟨ps, -, h⟩ := bind_eq_ok.1 h
    cases h
    rfl

end Cloud

end LidarSync
