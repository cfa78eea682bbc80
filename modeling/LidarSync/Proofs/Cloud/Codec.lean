import LidarSync.Proofs.Cloud.Packed
import Mathlib.Data.Set.Function

/-!
# Packing and reading are inverse to each other

A packed cloud is read exactly when it has the packed layout and its payload is long enough
(`Cloud.exists_points_iff`), and then the bytes of its points are its records
(`Cloud.flatMap_of_points`). So packing is a bijection between the lists of points that a 32-bit count
has room for and the packed clouds without surplus payload (`Cloud.IsTight`), reading undoes it, and
packing what was read off any other cloud cuts off the surplus (`Cloud.packing_inverts`).
-/

namespace LidarSync.Cloud

variable {c : Cloud} {ps : List Point}

/-- A cloud in the packed layout whose payload is its records and nothing else. -/
structure IsTight (c : Cloud) : Prop where
  stride : c.stride = packedStride
  fields : c.fields = packedFields
  /-- The count is a 32-bit word. -/
  count : c.count < 0x100000000
  payload : c.payload.length = c.count * packedStride

/-- A cloud without the payload behind its records. -/
def trimmed (c : Cloud) : Cloud := { c with payload := c.payload.take (c.count * packedStride) }

theorem exists_points_iff : (∃ ps, c.points = .ok ps) ↔
    c.stride = packedStride ∧ c.fields = packedFields ∧
      c.count * packedStride ≤ c.payload.length := by
  unfold Cloud.points
  split
  · next hpacked =>
    obtain ⟨hstride, hfields⟩ := isPacked_iff.1 hpacked
    simp only [map_eq_ok, extent_eq_ok_iff]
    constructor
    · rintro ⟨ps, n, ⟨⟨-, hlong⟩, -⟩, -⟩
      exact ⟨hstride, hfields, hstride ▸ hlong⟩
    · rintro ⟨-, -, hlong⟩
      exact ⟨_, _, ⟨⟨stride_pos_of_isPacked hpacked, hstride ▸ hlong⟩, rfl⟩, rfl⟩
  · next hother =>
    refine iff_of_false (fun ⟨ps, hps⟩ => nomatch hps) ?_
    rintro ⟨hstride, hfields, -⟩
    exact hother (isPacked_iff.2 ⟨hstride, hfields⟩)

/-- The points that are read off a cloud are as many as it counts, and their bytes are its
records. -/
theorem flatMap_of_points (h : c.points = .ok ps) : ps.length = c.count ∧
    ps.flatMap Point.toBytes = c.payload.take (c.count * packedStride) := by
  obtain ⟨hstride, hfields, hlong⟩ := exists_points_iff.1 ⟨ps, h⟩
  have hpacked := isPacked_iff.2 ⟨hstride, hfields⟩
  rw [← hstride] at hlong ⊢
  obtain ⟨qs, -, hlength, -, hall⟩ := exists_points hlong (places_of_isPacked hpacked)
  cases (points_of_isPacked hpacked hlong hall).symm.trans h
  exact ⟨hlength, (take_payload_of_isPacked hpacked hlong hall).symm⟩

/-- Packing the points of a cloud gives the cloud back, but for its surplus payload. -/
theorem ofPoints_of_points (hcount : c.count < 0x100000000) (h : c.points = .ok ps) :
    ofPoints c.stamp c.frame ps = c.trimmed := by
  obtain ⟨hstride, hfields, -⟩ := exists_points_iff.1 ⟨ps, h⟩
  obtain ⟨hlength, hbytes⟩ := flatMap_of_points h
  unfold ofPoints trimmed
  rw [hlength, Nat.mod_eq_of_lt hcount, hbytes, ← hstride, ← hfields]
  rfl

theorem points_ofPoints_of_lt (stamp : Float) (frame : String) (h : ps.length < 0x100000000) :
    (ofPoints stamp frame ps).points = .ok ps := by
  have hread := points_ofPoints ⟨stamp, frame⟩ stamp frame ps
  rw [Nat.mod_eq_of_lt h, List.take_length] at hread
  exact hread

theorem isTight_ofPoints (stamp : Float) (frame : String) (h : ps.length < 0x100000000) :
    (ofPoints stamp frame ps).IsTight := by
  have hcount : ps.length % 0x100000000 = ps.length := Nat.mod_eq_of_lt h
  refine ⟨rfl, rfl, Nat.mod_lt _ (by decide), ?_⟩
  change (ps.flatMap Point.toBytes).length = ps.length % 0x100000000 * packedStride
  rw [hcount, length_flatMap_toBytes]

theorem IsTight.trimmed (h : c.IsTight) : c.trimmed = c := by
  unfold Cloud.trimmed
  rw [List.take_of_length_le (Nat.le_of_eq h.payload)]

theorem IsTight.exists_points (h : c.IsTight) : ∃ ps, c.points = .ok ps :=
  exists_points_iff.2 ⟨h.stride, h.fields, Nat.le_of_eq h.payload.symm⟩

/-- Packing is a bijection between the lists of fewer than 2³² points and the packed clouds of a
stamp and a frame that have no surplus payload, and reading gives back the points that were packed,
bit for bit. A cloud is read exactly when it has the packed layout and its payload is long enough for
all its records; packing what was read then gives the same cloud with its payload cut to these
records. -/
theorem packing_inverts (stamp : Float) (frame : String) :
    Set.BijOn (ofPoints stamp frame) {ps | ps.length < 0x100000000}
      {c | c.header = ⟨stamp, frame⟩ ∧ c.IsTight} ∧
    (∀ ps : List Point, ps.length < 0x100000000 → (ofPoints stamp frame ps).points = .ok ps) ∧
    ∀ c : Cloud, ((∃ ps, c.points = .ok ps) ↔
        c.stride = packedStride ∧ c.fields = packedFields ∧
          packedStride * c.count ≤ c.payload.length) ∧
      (c.count < 0x100000000 → ∀ ps, c.points = .ok ps → ofPoints c.stamp c.frame ps
        = { c with payload := c.payload.take (packedStride * c.count) }) := by
  have hread : ∀ ps : List Point, ps.length < 0x100000000 →
      (ofPoints stamp frame ps).points = .ok ps := fun ps => points_ofPoints_of_lt stamp frame
  refine ⟨⟨?maps, ?injective, ?surjective⟩, hread, fun c => ?_⟩
  case maps => exact fun ps hps => ⟨rfl, isTight_ofPoints stamp frame hps⟩
  case injective =>
    intro ps hps qs hqs heq
    exact Except.ok.inj ((hread ps hps).symm.trans (heq ▸ hread qs hqs))
  case surjective =>
    rintro c ⟨hheader, htight⟩
    obtain ⟨ps, hps⟩ := htight.exists_points
    refine ⟨ps, ?_, ?_⟩
    · rw [Set.mem_ofPred_eq, (flatMap_of_points hps).1]
      exact htight.count
    · have hcloud := ofPoints_of_points htight.count hps
      rw [htight.trimmed] at hcloud
      unfold Cloud.stamp Cloud.frame at hcloud
      rw [hheader] at hcloud
      exact hcloud
  · rw [Nat.mul_comm packedStride]
    exact ⟨exists_points_iff, fun hcount ps hps => ofPoints_of_points hcount hps⟩

/-- A packed cloud of one point, a signalling value that is no number among its coordinates, with two
bytes of surplus payload. -/
def overfull : Cloud where
  header := ⟨2.5, "lidar"⟩
  count := 1
  stride := packedStride
  fields := packedFields
  payload := [1, 0, 160, 127, 0, 0, 128, 63, 0, 0, 0, 64, 0, 0, 64, 64, 7, 8]

theorem packing_inverts_overfull : overfull.count < 0x100000000 ∧ ∃ ps,
    ps.length < 0x100000000 ∧ overfull.points = .ok ps ∧
    (ofPoints 2.5 "lidar" ps).points = .ok ps ∧
    ofPoints 2.5 "lidar" ps = { overfull with payload := overfull.payload.take 16 } := by
  obtain ⟨-, hread, hclouds⟩ := packing_inverts 2.5 "lidar"
  obtain ⟨hiff, hpack⟩ := hclouds overfull
  have hcount : overfull.count < 0x100000000 := by decide
  obtain ⟨ps, hps⟩ := hiff.2 ⟨rfl, rfl, by decide⟩
  have hlength : ps.length < 0x100000000 := by
    rw [(flatMap_of_points hps).1]
    exact hcount
  exact ⟨hcount, ps, hlength, hps, hread ps hlength, hpack hcount ps hps⟩

end LidarSync.Cloud
