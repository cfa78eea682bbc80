import LidarSync.Proofs.Motion.Planar
import LidarSync.Proofs.Cloud.Points
import LidarSync.Proofs.Outcome
import LidarSync.Proofs.Round.Classes

/-!
# What is published of a cloud

An aligned cloud holds the points of the cloud in the output frame, each moved by the correction and
rounded to single words (`TopicSlots.exists_published`). What is published before the rounding is a
formula over any kind of numbers (`publish`), and over the reals it is planar: the summary of the
correction tells where each point goes, and heights, intensities and distances stay
(`publish_planar`).
-/

namespace LidarSync

/-- A point whose coordinates are not rounded to single words. -/
structure Spot (α : Type) where
  position : Vec α
  intensity : Single

namespace Spot

def moved {α : Type} [Scalar α] (pose : Pose α) (s : Spot α) : Spot α :=
  ⟨pose.apply s.position, s.intensity⟩

def ofPoint (p : Point) : Spot Float := ⟨⟨p.x.toDouble, p.y.toDouble, p.z.toDouble⟩, p.intensity⟩

def rounded (s : Spot Float) : Point :=
  ⟨.ofDouble s.position.x, .ofDouble s.position.y, .ofDouble s.position.z, s.intensity⟩

end Spot

/-- What a round publishes of the spots of a cloud in the output frame, and the summary of their
correction. -/
def publish {α : Type} [Scalar α] (h : History α) (stamps : List α) (stamp : α)
    (spots : List (Spot α)) : Option (List (Spot α) × CorrectionSummary α) :=
  (chainedCorrection h (descendingStamps stamps) stamp).map fun c =>
    (spots.map (Spot.moved c.pose), .ofPose stamp c.pose)

/-! ## Aligned clouds -/

/-- An aligned cloud is made of the points of the cloud in the output frame. -/
theorem FrameGraph.align_eq_ok {g : FrameGraph Float} {frame : String} {reference : Float}
    {pose : Pose Float} {c moved : Cloud}
    (haligns : g.transformer.align frame reference pose c = .ok moved) :
    ∃ there ps, c.reproject g frame = .ok there ∧ there.points = .ok ps ∧
      moved = .ofPoints reference frame (ps.map (Point.moved pose)) := by
  unfold Transformer.align at haligns
  obtain ⟨there, hthere, hrest⟩ := bind_eq_ok.1 haligns
  obtain ⟨carried, hcarried, hstamped⟩ := bind_eq_ok.1 hrest
  obtain ⟨ps, hps, rfl⟩ := map_eq_ok.1 (mapError_eq_ok.1 hcarried)
  cases hstamped
  exact ⟨there, ps, hthere, hps, rfl⟩

/-- A cloud that is in the output frame already and can be read does not fail. -/
theorem FrameGraph.not_fails {g : FrameGraph Float} {frame : String} {pose : Pose Float} {c : Cloud}
    {ps : List Point} (hframe : c.frame = frame) (hps : c.points = .ok ps) :
    ¬ g.transformer.Fails frame pose c := by
  have hthere : g.transformer.reproject frame c = .ok c := if_pos hframe
  have hmoved : c.moved pose = .ok (.ofPoints c.stamp c.frame (ps.map (Point.moved pose))) := by
    rw [Cloud.moved, hps]
    rfl
  rintro (⟨fault, herror⟩ | ⟨there, fault, heq, herror⟩)
  · rw [hthere] at herror
    exact absurd herror nofun
  · cases hthere.symm.trans heq
    change (c.moved pose).mapError _ = _ at herror
    rw [hmoved] at herror
    exact absurd herror nofun

/-- An aligned round publishes of each of its clouds the points of the cloud in the output frame, moved
by the correction and rounded. -/
theorem TopicSlots.exists_published {g : FrameGraph Float} {frame : String} {h : History Float}
    {s : TopicSlots} {r : AlignedRound} (hr : s.align g frame h = some r) {t : Topic} {cloud : Cloud}
    {summary : CorrectionSummary Float} (hmem : (t, Aligned.moved cloud summary) ∈ r.topics) :
    ∃ c there ps spots reference, (t, some c) ∈ s ∧ c.reproject g frame = .ok there ∧
      there.points = .ok ps ∧ r.reference = some reference ∧
      publish h s.stamps c.stamp (ps.map Spot.ofPoint) = some (spots, summary) ∧
      cloud = .ofPoints reference frame (spots.map Spot.rounded) := by
  obtain ⟨hreference, hrelated⟩ := alignWith_related hr
  obtain ⟨slot, hslot, hbecomes⟩ := Keyed.Related.exists_of_mem hrelated hmem
  cases hbecomes with
  | @moved c _ chained reference chains last aligns =>
    obtain ⟨there, ps, hthere, hps, rfl⟩ := FrameGraph.align_eq_ok aligns
    refine ⟨c, there, ps, (ps.map Spot.ofPoint).map (Spot.moved chained.pose), reference, hslot,
      hthere, hps, hreference.trans last, ?_, ?_⟩
    · rw [publish, chains, Option.map_some]
    · rw [List.map_map, List.map_map]
      rfl

/-! ## Published points -/

/-- A motion of the plane: a rotation about z, and a shift without height. -/
def Pose.IsPlanar (p : Pose ℝ) : Prop :=
  p.shift.z = 0 ∧ ∃ angle, p.rotation = Quaternion.ofAngles 0 0 angle

/-- A summary tells what became of spots: each is turned about z by the angle and then shifted, which
keeps its height, its intensity and its distances from the others. -/
structure CorrectionSummary.Tells (s : CorrectionSummary ℝ) (spots moved : List (Spot ℝ)) : Prop where
  points : List.Forall₂ (fun p q => q.position = p.position.turned s.yaw + ⟨s.dx, s.dy, 0⟩ ∧
    q.position.z = p.position.z ∧ q.intensity = p.intensity) spots moved
  distances : ∀ p ∈ spots.zip moved, ∀ q ∈ spots.zip moved,
    p.2.position.distance q.2.position = p.1.position.distance q.1.position

theorem CorrectionSummary.tells_ofPose (d : Drift ℝ) (stamp : ℝ) (spots : List (Spot ℝ)) :
    (CorrectionSummary.ofPose stamp d.toPose).Tells spots (spots.map (Spot.moved d.toPose)) := by
  constructor
  · rw [List.forall₂_map_right_iff, List.forall₂_same]
    intro p _
    have hposition := Drift.apply_toPose_eq_turned d p.position
    refine ⟨hposition, ?_, rfl⟩
    change (d.toPose.apply p.position).z = p.position.z
    rw [hposition]
    exact add_zero _
  · have hpair : ∀ x ∈ spots.zip (spots.map (Spot.moved d.toPose)), x.2 = x.1.moved d.toPose := by
      rw [← List.map_prod_left_eq_zip, List.forall_mem_map]
      exact fun _ _ => rfl
    intro p hp q hq
    rw [hpair p hp, hpair q hq]
    change (d.toPose.apply p.1.position).distance (d.toPose.apply q.1.position) = _
    rw [Drift.apply_toPose, Drift.apply_toPose]
    exact Vec.distance_turned_add _ _ _ _

/-- An aligned round publishes of each of its clouds the points that the cloud has in the output frame,
moved by a correction and rounded. In exact numbers the correction is planar, for every history and
every round: it keeps heights, intensities and distances, and turning the points about z by the
reported angle and then shifting them by the reported way gives what is published. -/
theorem publish_planar :
    (∀ (g : FrameGraph Float) (frame : String) (h : History Float) (s : TopicSlots)
      (r : AlignedRound), s.align g frame h = some r → ∀ t cloud summary,
      (t, Aligned.moved cloud summary) ∈ r.topics →
      ∃ c there ps spots reference, (t, some c) ∈ s ∧ c.reproject g frame = .ok there ∧
        there.points = .ok ps ∧ r.reference = some reference ∧
        publish h s.stamps c.stamp (ps.map Spot.ofPoint) = some (spots, summary) ∧
        cloud = .ofPoints reference frame (spots.map Spot.rounded)) ∧
    ∀ (h : History ℝ) (stamps : List ℝ) (stamp : ℝ) (spots : List (Spot ℝ)),
      ∃ c moved, chainedCorrection h (descendingStamps stamps) stamp = some c ∧ c.pose.IsPlanar ∧
        publish h stamps stamp spots = some (moved, .ofPose stamp c.pose) ∧
        (CorrectionSummary.ofPose stamp c.pose).Tells spots moved := by
  refine ⟨?_, ?_⟩
  · intro g frame h s r hr t cloud summary hmem
    exact TopicSlots.exists_published hr hmem
  · intro h stamps stamp spots
    obtain ⟨d, n, hchain⟩ := h.exists_toPose_chainedCorrection (descendingStamps stamps) stamp
    have hplanar : d.toPose.IsPlanar := ⟨rfl, d.yaw, rfl⟩
    have htells := CorrectionSummary.tells_ofPose d stamp spots
    refine ⟨_, _, hchain, hplanar, ?_, htells⟩
    rw [publish, hchain, Option.map_some]

/-- A point of a cloud. -/
def corner : Point := ⟨.ofDouble 1, .ofDouble 2, .ofDouble 3, .ofDouble 4⟩

/-- Two clouds of one point each, one of them a sixteenth of a second after the other. -/
def paired : TopicSlots :=
  [("/left", some (.ofPoints 1.0625 "base" [corner])), ("/right", some (.ofPoints 1 "base" [corner]))]

/-- The report of a vehicle in a bend. -/
def turning : History Float := { samples := [⟨1, 10, 0, 1⟩] }

/-- The later of two clouds is aligned, and published is its point, moved. In exact numbers, this is a
motion of the plane. -/
theorem publish_planar_paired :
    (∃ r cloud summary spots reference, paired.align .empty "base" turning = some r ∧
      ("/left", .moved cloud summary) ∈ r.topics ∧
      publish turning paired.stamps 1.0625 [Spot.ofPoint corner] = some (spots, summary) ∧
      cloud = .ofPoints reference "base" (spots.map Spot.rounded)) ∧
    ∃ c moved, publish History.bend [21 / 20, 1] (21 / 20) [⟨⟨1, 2, 3⟩, corner.intensity⟩]
        = some (moved, .ofPose (21 / 20) c) ∧ c.IsPlanar ∧
      (CorrectionSummary.ofPose (21 / 20) c).Tells [⟨⟨1, 2, 3⟩, corner.intensity⟩] moved := by
  obtain ⟨hpublished, hplanar⟩ := publish_planar
  have hpoints : (Cloud.ofPoints 1.0625 "base" [corner]).points = .ok [corner] :=
    Cloud.points_ofPoints ⟨1.0625, "base"⟩ 1.0625 "base" [corner]
  refine ⟨?_, ?_⟩
  · have hnumbers : ∀ x ∈ paired.stamps, x.isNaN = false := by decide +kernel
    have hanswer : (paired.align .empty "base" turning).isSome :=
      TopicSlots.alignWith_isSome hnumbers
    obtain ⟨r, hr⟩ := Option.isSome_iff_exists.1 hanswer
    obtain ⟨a, ha, hbecomes⟩ := (TopicSlots.alignWith_related hr).2.get? (k := "/left") rfl
    cases hbecomes with
    | failed chains fails => exact absurd fails (FrameGraph.not_fails rfl hpoints)
    | @moved _ cloud chained _ chains last aligns =>
      have hmem := Keyed.mem_of_get? ha
      obtain ⟨c, there, ps, spots, reference, hslot, hthere, hps, -, hpublish, heq⟩ :=
        hpublished .empty "base" turning paired r hr "/left" cloud _ hmem
      obtain rfl : c = .ofPoints 1.0625 "base" [corner] := by
        rcases List.mem_cons.1 hslot with heq | hother
        · exact Option.some.inj (Prod.mk.inj heq).2
        · exact absurd (Prod.mk.inj (List.mem_singleton.1 hother)).1 (by decide)
      cases hthere
      cases hpoints.symm.trans hps
      exact ⟨r, cloud, _, spots, reference, hr, hmem, hpublish, heq⟩
  · obtain ⟨c, moved, -, hshape, hpublish, htells⟩ :=
      hplanar History.bend [21 / 20, 1] (21 / 20) [⟨⟨1, 2, 3⟩, corner.intensity⟩]
    exact ⟨c.pose, moved, hpublish, hshape, htells⟩

end LidarSync
