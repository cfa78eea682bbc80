import LidarSync.Proofs.Cloud.Packed
import LidarSync.Proofs.CommandLine.Agreement
import LidarSync.Proofs.Geometry.Search
import LidarSync.Proofs.Round.Backpressure
import LidarSync.Proofs.Round.Batch

/-!
# Which clouds fail

A cloud that was taken in can be read, and so can whatever it becomes on its way through alignment
(`Cloud.Decodes`). What is left that can fail is the lookup of its frame, so a cloud fails exactly when
its frame is not connected with the output frame (`Cloud.Decodes.fails_iff`). That is what `validate`
looks up for the frames of the sources, so it warns of exactly the failures of the clouds in these
frames (`Blueprint.failed_iff_unconnected`).
-/

namespace LidarSync

open Keyed (get? keys Ascends)

/-! ## Clouds -/

/-- The points of a packed cloud are all there. -/
def Cloud.Decodes (c : Cloud) : Prop := ∃ ps, c.points = .ok ps

namespace Cloud

variable {c p : Cloud}

theorem decodes_ofPoints (header : Header) (stamp : Float) (frame : String) (ps : List Point) :
    Decodes { ofPoints stamp frame ps with header } :=
  ⟨_, points_ofPoints header stamp frame ps⟩

/-- A cloud that is taken in decodes: it was packed from points, or its payload has been looked at. -/
theorem decodes_of_packed (h : c.packed = .ok p) : p.Decodes := by
  obtain ⟨hlong, o, ho⟩ := readable_iff.1 (readable_of_packed h)
  cases hpacked : c.isPacked with
  | true =>
    rw [packed_of_isPacked hpacked hlong.2] at h
    cases h
    obtain ⟨ps, hps, -⟩ := (isPackedFrom_self hpacked hlong.2).points
    exact ⟨ps, hps⟩
  | false =>
    obtain ⟨ps, hps, -⟩ := exists_points hlong.2 ho
    rw [packed_of_places hpacked hlong ho hps] at h
    cases h
    exact decodes_ofPoints c.header c.stamp c.frame ps

namespace Decodes

/-- Moving a cloud that decodes gives one that does, under any header. -/
theorem exists_moved (h : c.Decodes) (pose : Pose Float) :
    ∃ moved, c.moved pose = .ok moved ∧ ∀ header, Decodes { moved with header } := by
  obtain ⟨ps, hps⟩ := h
  refine ⟨.ofPoints c.stamp c.frame (ps.map (Point.moved pose)), ?_, fun header => ?_⟩
  · rw [Cloud.moved, hps]
    rfl
  · exact decodes_ofPoints header c.stamp c.frame _

/-- All that can happen to a cloud that decodes on its way into a frame. -/
theorem reproject_cases (h : c.Decodes) (g : FrameGraph Float) (target : String) :
    (g.lookup target c.frame = none ∧
      c.reproject g target = .error (.noConnection target c.frame)) ∨
    ∃ pose there, g.lookup target c.frame = some pose ∧ c.reproject g target = .ok there ∧
      there.Decodes := by
  unfold Cloud.reproject
  by_cases hframe : c.frame = target
  · rw [if_pos hframe]
    exact Or.inr ⟨Pose.identity, c, if_pos hframe.symm, rfl, h⟩
  · rw [if_neg hframe]
    cases hlookup : g.lookup target c.frame with
    | none => exact Or.inl ⟨rfl, rfl⟩
    | some pose =>
      obtain ⟨moved, hmoved, hdecodes⟩ := h.exists_moved pose
      refine Or.inr ⟨pose, { moved with header := { moved.header with frame := target } }, rfl, ?_, ?_⟩
      · dsimp only
        rw [hmoved]
      · exact hdecodes { moved.header with frame := target }

/-- A cloud that decodes fails exactly when there is no way from its frame to the other one. -/
theorem fails_iff (h : c.Decodes) {g : FrameGraph Float} {target : String} {pose : Pose Float} :
    g.transformer.Fails target pose c ↔ g.lookup target c.frame = none := by
  rcases h.reproject_cases g target with ⟨hnone, herror⟩ | ⟨found, there, hsome, hthere, hdecodes⟩
  · exact iff_of_true (Or.inl ⟨_, herror⟩) hnone
  · have hreproject : g.transformer.reproject target c = .ok there := hthere
    obtain ⟨moved, hmoved, -⟩ := hdecodes.exists_moved pose
    have hmove : g.transformer.move pose there = .ok moved := by
      change (there.moved pose).mapError _ = _
      rw [hmoved]
      rfl
    rw [hsome]
    refine iff_of_false ?_ nofun
    rintro (⟨fault, herror⟩ | ⟨there', fault, hsame, herror⟩)
    · rw [hreproject] at herror
      exact absurd herror nofun
    · cases hreproject.symm.trans hsame
      rw [hmove] at herror
      exact absurd herror nofun

end Decodes

end Cloud

/-! ## Rounds -/

/-- A topic of an aligned round has failed exactly when its cloud is in a frame that is not connected
with the output frame. -/
theorem TopicSlots.mem_failed_iff {s : TopicSlots} {g : FrameGraph Float} {frame : String}
    {h : History Float} {r : AlignedRound} (hs : Ascends s) (hdecodes : s.Each Cloud.Decodes)
    (hr : s.alignWith g.transformer frame h = some r) {t : Topic} :
    t ∈ r.failed ↔ ∃ c, s.cloud? t = some c ∧ g.lookup frame c.frame = none := by
  obtain ⟨-, hrelated⟩ := alignWith_related hr
  rw [AlignedRound.mem_failed_iff (hrelated.ascends hs)]
  constructor
  · intro hfailed
    obtain ⟨slot, hslot, hbecomes⟩ := hrelated.exists_of_mem (Keyed.mem_of_get? hfailed)
    cases hbecomes with
    | @failed c _ _ fails =>
      have hcloud := cloud?_eq_some_iff.2 ((Keyed.mem_iff_get? hs).1 hslot)
      exact ⟨c, hcloud, (hdecodes t c hslot).fails_iff.1 fails⟩
  · rintro ⟨c, hcloud, hnone⟩
    have hslot := cloud?_eq_some_iff.1 hcloud
    obtain ⟨a, ha, hbecomes⟩ := hrelated.get? hslot
    cases hbecomes with
    | failed _ _ => exact ha
    | @moved _ _ chained _ _ _ aligns =>
      have hfails : g.transformer.Fails frame chained.pose c :=
        (hdecodes t c (Keyed.mem_of_get? hslot)).fails_iff.2 hnone
      exact absurd hfails (Transformer.not_fails_of_align aligns)

/-- Engines that agree in all that the rounds depend on, where clouds of one kind are taken in. -/
def Likeness.ofClouds (m : Transformer ReprojectFault) (P : Cloud → Prop) : Likeness m :=
  { ofQueues m with
    clouds := P
    queues := Eq
    aligned := fun slots frame c c' _ => (ofQueues m).aligned slots frame c c' fun _ _ _ => trivial
    sent := fun _ _ _ _ hset hqueue => by rw [show _ = _ from hset, hqueue] }

namespace Interplay

variable {w : Interplay} {x : Event} {now : Instant} {r : ClosedRound}

/-- Whatever closes a round publishes it, with one slot for each topic. -/
theorem closed_next (hsound : w.engine.collector.Sound)
    (h : (w.next x).turns = (now, .closed r) :: w.turns) :
    w.engine.Publishes r ∧ keys r.slots = ascending w.engine.collector.topics := by
  rcases w.next_turns x with hturns | ⟨at', input, hturns⟩
  · exact absurd (hturns.symm.trans h).symm (List.cons_ne_self _ _)
  · have hturn : (w.engine.step at' input).turn = .closed r :=
      (Prod.mk.inj (List.cons.inj (hturns.symm.trans h)).1).2
    have hmove := w.engine.step_move at' input
    rw [hturn] at hmove
    exact ⟨Engine.step_publishes hturn, hmove.keys_closed hsound⟩

/-- Whatever happens to a synchronizer, it holds only clouds of a kind that all packed clouds are of. -/
theorem level_self {P : Cloud → Prop} (hP : ∀ c p : Cloud, c.packed = .ok p → P p)
    (s : SyncSettings) (m : Transformer ReprojectFault) (halving : Halving Float)
    (xs : List Event) :
    (Likeness.ofClouds m P).Level ((ofTransformer s m halving).after xs)
      ((ofTransformer s m halving).after xs) := by
  -- The two interleavings are one, so whatever is done beside the rounds is the same in both.
  induction xs using List.reverseRecOn with
  | nil => exact .start s halving halving s.queueSize rfl rfl
  | append_singleton xs x ih =>
    rw [after_concat]
    exact ih.next (fun _ c packed _ => hP c packed) fun y _ => ih.engine.aside y rfl rfl

end Interplay

/-! ## Blueprints -/

namespace Blueprint

open Interplay (Event)

variable {b : Blueprint} {frame : String}

/-- A frame is not the output frame, and no transforms of the blueprint connect the two. -/
def Unconnected (b : Blueprint) (frame : String) : Prop :=
  frame ≠ b.synchronizer.outputFrame ∧
    ¬ FrameGraph.Connected (b.frames.map fun t => (t.parent, t.child, t.placement.toPose))
      b.synchronizer.outputFrame frame

theorem lookup_eq_none_iff :
    (FrameGraph.ofTransforms b.frames).lookup b.synchronizer.outputFrame frame = none ↔
      b.Unconnected frame := by
  rw [← Option.not_isSome_iff_eq_none, FrameGraph.ofTransforms, FrameGraph.lookup_isSome_iff]
  refine ⟨fun hnot => ⟨?_, hnot⟩, And.right⟩
  rintro rfl
  exact hnot ⟨[], .here⟩

/-- A synchronizer that is started with a blueprint, after some events. It may search the velocity
history in any way. -/
def synchronizing (b : Blueprint) (halving : Halving Float) (xs : List Event) : Interplay :=
  (Interplay.ofTransformer b.synchronizer (FrameGraph.ofTransforms b.frames).transformer
    halving).after xs

theorem informed_synchronizing (b : Blueprint) (halving : Halving Float) (xs : List Event) :
    Interplay.Informed b.synchronizer (b.synchronizing halving xs) :=
  Interplay.informed_after b.synchronizer _ halving xs

theorem level_synchronizing (b : Blueprint) (halving : Halving Float) (xs : List Event) :
    (Likeness.ofClouds (FrameGraph.ofTransforms b.frames).transformer Cloud.Decodes).Level
      (b.synchronizing halving xs) (b.synchronizing halving xs) :=
  Interplay.level_self (fun _ _ => Cloud.decodes_of_packed) b.synchronizer _ halving xs

section Closed

variable {halving : Halving Float} {xs : List Event} {x : Event} {now : Instant} {r : ClosedRound}
  {t : Topic}
  (h : ((b.synchronizing halving xs).next x).turns
    = (now, .closed r) :: (b.synchronizing halving xs).turns)

include h

theorem decodes_of_closed : r.slots.Each Cloud.Decodes := by
  have hlevel := b.level_synchronizing halving (xs ++ [x])
  unfold synchronizing at hlevel
  rw [Interplay.after_concat] at hlevel
  exact hlevel.held (h ▸ List.mem_cons_self)

/-- A round reports exactly those topics as failed whose cloud is in an unconnected frame. -/
theorem mem_failed_iff {set : SyncedSet} (hset : r.set? = some set) :
    t ∈ set.details.failed ↔ ∃ c, r.slots.cloud? t = some c ∧ b.Unconnected c.frame := by
  have hinformed := b.informed_synchronizing halving xs
  have hlevel := b.level_synchronizing halving xs
  obtain ⟨⟨at', trigger, hbuilt⟩, hkeys⟩ := Interplay.closed_next hinformed.sound h
  rw [hlevel.engine.transformer_eq, hinformed.settings_eq] at hbuilt
  obtain ⟨aligned, haligned, rfl⟩ := Option.map_eq_some_iff.1 (hbuilt.symm.trans hset)
  simp only [← lookup_eq_none_iff]
  exact TopicSlots.mem_failed_iff (Keyed.ascends_of_keys hkeys) (decodes_of_closed h) haligned

end Closed

/-- Whatever a synchronizer is given, and however it searches its velocity history, a round that it
closes is lost exactly when its clouds jam. Of any
other round it reports exactly those topics as failed whose cloud is in a frame that is not the output
frame and that no transforms of the blueprint connect with it; and for clouds in the frame of a source
these are the ones that `validate` warns of at the source. Nothing else can fail: each cloud of a round
decodes, a cloud in a connected frame is brought into the output frame, and what comes of that decodes
again and can be moved by every correction. -/
theorem failed_iff_unconnected (b : Blueprint) (halving : Halving Float) (xs : List Event) {x : Event}
    {now : Instant} {r : ClosedRound}
    (h : ((b.synchronizing halving xs).next x).turns
      = (now, .closed r) :: (b.synchronizing halving xs).turns) :
    let g := FrameGraph.ofTransforms b.frames
    let target := b.synchronizer.outputFrame
    (r.set? = none ↔ r.slots.Jams (b.synchronizing halving xs).engine.compensator.history.indexAt) ∧
    (∀ set, r.set? = some set → ∀ t,
      (t ∈ set.details.failed ↔ ∃ c, r.slots.cloud? t = some c ∧ b.Unconnected c.frame) ∧
      ∀ c, r.slots.cloud? t = some c → ∀ s ∈ b.sources.clouds, s.frame = c.frame →
        (t ∈ set.details.failed ↔
          .unconnectedFrame s.frame s.topic target ∈ CommandLine.warnings b)) ∧
    ∀ t c, r.slots.cloud? t = some c → c.Decodes ∧
      (b.Unconnected c.frame → c.reproject g target = .error (.noConnection target c.frame)) ∧
      (¬ b.Unconnected c.frame → ∃ there, c.reproject g target = .ok there ∧ there.Decodes ∧
        ∀ pose, ∃ moved, there.moved pose = .ok moved) := by
  intro g target
  obtain ⟨hpublishes, -⟩ := Interplay.closed_next (b.informed_synchronizing halving xs).sound h
  refine ⟨hpublishes.lost_iff, fun set hset t => ⟨mem_failed_iff h hset, ?_⟩, fun t c hc => ?_⟩
  · intro c hc s hs hframe
    rw [mem_failed_iff h hset, CommandLine.unconnectedFrame_mem_iff hs, hframe, lookup_eq_none_iff]
    constructor
    · rintro ⟨c', hc', hunconnected⟩
      cases hc.symm.trans hc'
      exact hunconnected
    · exact fun hunconnected => ⟨c, hc, hunconnected⟩
  · have hmem : (t, some c) ∈ r.slots := Keyed.mem_of_get? (TopicSlots.cloud?_eq_some_iff.1 hc)
    have hdecodes := decodes_of_closed h t c hmem
    refine ⟨hdecodes, ?_⟩
    rw [← lookup_eq_none_iff]
    rcases hdecodes.reproject_cases g target with
      ⟨hnone, herror⟩ | ⟨pose, there, hsome, hthere, hagain⟩
    · exact ⟨fun _ => herror, fun hne => absurd hnone hne⟩
    · refine ⟨fun hnone => absurd (hsome.symm.trans hnone) nofun, fun _ => ?_⟩
      refine ⟨there, hthere, hagain, fun pose => ?_⟩
      obtain ⟨moved, hmoved, -⟩ := hagain.exists_moved pose
      exact ⟨moved, hmoved⟩

/-- A pair of lidars, of which only the left one is mounted on the vehicle. -/
def halfMounted : Blueprint where
  synchronizer := .pair
  frames := [{ parent := "base_link", child := "left" }]
  sources := { clouds := [{ topic := "/left", frame := "left", frequency := 10 },
    { topic := "/right", frame := "right", frequency := 10 }] }

theorem not_unconnected_left : ¬ halfMounted.Unconnected "left" := by
  rintro ⟨-, hnone⟩
  exact hnone ⟨_, .on .here (.down List.mem_cons_self)⟩

theorem unconnected_right : halfMounted.Unconnected "right" := lookup_eq_none_iff.1 (by rfl)

/-- The empty cloud of a lidar, in its frame. -/
def leftCloud (stamp : Float) : Cloud := .ofPoints stamp "left" []

def rightCloud (stamp : Float) : Cloud := .ofPoints stamp "right" []

/-- Three velocity reports, then the left lidar delivers, and then the lock is taken for the right one. -/
def leftArrived (stamp : Float) : List Event :=
  [.aside (.velocity ⟨1, 0, 0, 0⟩), .aside (.velocity ⟨1.25, 0, 0, 0⟩),
    .aside (.velocity ⟨1.5, 0, 0, 0⟩), .acquire, .arrive "/left" (leftCloud stamp), .release, .acquire]

/-- What the right lidar delivers completes the round. -/
theorem closed_leftArrived (stamp : Float) : ∃ r,
    ((halfMounted.synchronizing .middle (leftArrived stamp)).next
        (.arrive "/right" (rightCloud 1.5))).turns
      = (0, .closed r) :: (halfMounted.synchronizing .middle (leftArrived stamp)).turns ∧
    r.slots = [("/left", some (leftCloud stamp)), ("/right", some (rightCloud 1.5))] := by
  obtain ⟨mid, harrive, hslots⟩ : ∃ mid,
      (halfMounted.synchronizing .middle (leftArrived stamp)).engine.collector.arrive "/right"
          (rightCloud 1.5)
        = some (.complete, mid) ∧
      (mid.close .complete).1
        = [("/left", some (leftCloud stamp)), ("/right", some (rightCloud 1.5))] := ⟨_, rfl, rfl⟩
  rcases Engine.takeIn_cases harrive 0 with
    ⟨-, r, hturn, hcloses, -⟩ | ⟨_, hpending, -⟩ | ⟨hpending, -⟩
  · refine ⟨r, ?_, hcloses.slots_eq.trans hslots⟩
    rw [← hturn]
    rfl
  · exact absurd hpending nofun
  · exact absurd hpending nofun

/-- The blueprint is valid, and `validate` warns of the right lidar alone. A round of both lidars reports
this one as failed and the left one not. -/
theorem failed_iff_unconnected_halfMounted :
    halfMounted.validate = .ok () ∧ ∃ r set,
      ((halfMounted.synchronizing .middle (leftArrived 1.25)).next
          (.arrive "/right" (rightCloud 1.5))).turns
        = (0, .closed r) :: (halfMounted.synchronizing .middle (leftArrived 1.25)).turns ∧
      r.set? = some set ∧ "/right" ∈ set.details.failed ∧ "/left" ∉ set.details.failed ∧
      .unconnectedFrame "right" "/right" "base_link" ∈ CommandLine.warnings halfMounted ∧
      .unconnectedFrame "left" "/left" "base_link" ∉ CommandLine.warnings halfMounted := by
  obtain ⟨r, hclosed, hslots⟩ := closed_leftArrived 1.25
  obtain ⟨hlost, hfailed, -⟩ := failed_iff_unconnected halfMounted .middle (leftArrived 1.25) hclosed
  have hbuilt : r.set? ≠ none := by
    rw [Ne, hlost, hslots]
    rintro ⟨⟨x, hx, hnan⟩, -⟩
    have hx : x ∈ [(1.25 : Float), 1.5] := hx
    simp only [List.mem_cons, List.not_mem_nil, or_false] at hx
    rcases hx with rfl | rfl
    · exact absurd hnan (by decide +kernel)
    · exact absurd hnan (by decide +kernel)
  obtain ⟨set, hset⟩ := Option.ne_none_iff_exists'.1 hbuilt
  have hleft : r.slots.cloud? "/left" = some (leftCloud 1.25) := by
    rw [hslots]
    rfl
  have hright : r.slots.cloud? "/right" = some (rightCloud 1.5) := by
    rw [hslots]
    rfl
  obtain ⟨hunconnected, hwarned⟩ := hfailed set hset "/right"
  have hmem := hunconnected.2 ⟨_, hright, unconnected_right⟩
  obtain ⟨hunconnected', hwarned'⟩ := hfailed set hset "/left"
  have hnotMem : "/left" ∉ set.details.failed := by
    rw [hunconnected']
    rintro ⟨c, hc, hframe⟩
    cases hleft.symm.trans hc
    exact not_unconnected_left hframe
  refine ⟨by rfl, r, set, hclosed, hset, hmem, hnotMem, ?_, ?_⟩
  · exact (hwarned _ hright _ (List.mem_cons_of_mem _ List.mem_cons_self) rfl).1 hmem
  · exact mt (hwarned' _ hleft _ List.mem_cons_self rfl).2 hnotMem

/-- When the stamp of the left cloud is no number, the same round is lost, and nothing is reported of
the right one. -/
theorem unconnected_lost :
    halfMounted.validate = .ok () ∧ halfMounted.Unconnected "right" ∧ ∃ r,
      ((halfMounted.synchronizing .middle (leftArrived (0 / 0))).next
          (.arrive "/right" (rightCloud 1.5))).turns
        = (0, .closed r) :: (halfMounted.synchronizing .middle (leftArrived (0 / 0))).turns ∧
      r.slots.cloud? "/right" = some (rightCloud 1.5) ∧ r.set? = none := by
  obtain ⟨r, hclosed, hslots⟩ := closed_leftArrived (0 / 0)
  obtain ⟨hpublishes, -⟩ := Interplay.closed_next
    (halfMounted.informed_synchronizing .middle (leftArrived (0 / 0))).sound hclosed
  refine ⟨by rfl, unconnected_right, r, hclosed, ?_, ?_⟩
  · rw [hslots]
    rfl
  · rw [hpublishes.lost_iff, hslots]
    have hright : (1.5 : Float) ∈ [(0 / 0 : Float), 1.5] := List.mem_cons_of_mem _ List.mem_cons_self
    exact ⟨⟨0 / 0, List.mem_cons_self, by rfl⟩, 1.5, hright, by rfl, by decide +kernel⟩

end Blueprint

end LidarSync
