import LidarSync.Proofs.Round.Classes
import LidarSync.Proofs.Round.Invariant

/-!
# Lost rounds

Closing a round asks the history for the motion over intervals between its stamps. The history has no
answer where the place for the start of an interval is more than one behind the place for its end, and
then the round is lost. That takes a cloud whose stamp is no number together with one whose stamp has a
place behind the first two of at least three reports (`TopicSlots.Jams`), whatever closes the round and
however the history is searched for the places, in order or not (`Engine.step_lost_iff`).
-/

namespace LidarSync

/-! ## Slots -/

namespace TopicSlots

/-- One cloud has a stamp that is no number, and the place for the stamp of another one is neither
the first nor the second. -/
def Jams (s : TopicSlots) (place : Float → Nat) : Prop :=
  (∃ x ∈ s.stamps, x.isNaN = true) ∧ ∃ x ∈ s.stamps, x.isNaN = false ∧ 2 ≤ place x

variable {s : TopicSlots}

/-- The corrections of a round ask for an interval whose places are the wrong way round exactly when
its clouds jam. -/
theorem jams_iff {place : Float → Nat} (hplace : History.Orderly place) :
    s.Jams place ↔ ∃ stamp ∈ s.stamps, ∃ p ∈ chainSpans stamp (descendingStamps s.stamps),
      ¬ p.2 < p.1 ∧ place p.2 + 1 < place p.1 := by
  simp only [gap_chainSpans_iff hplace]
  constructor
  · rintro ⟨⟨stamp, hstamp, hnan⟩, y, hy, hnumber, htwo⟩
    obtain ⟨x, hx, hxn, hle⟩ := descendingStamps_greatest hy hnumber
    exact ⟨stamp, hstamp, hnan, x, hx, htwo.trans (hplace.mono y x hnumber hxn hle)⟩
  · rintro ⟨stamp, hstamp, hnan, x, hx, htwo⟩
    have hfound : (!x.isNaN) = true := List.find?_some (p := fun y : Float => !y.isNaN) hx
    have hnumber : x.isNaN = false := (Bool.not_eq_true' _).mp hfound
    have hmem : x ∈ s.stamps := descendingStamps_subset _ (List.mem_of_find?_eq_some hx)
    exact ⟨⟨stamp, hstamp, hnan⟩, x, hmem, hnumber, htwo⟩

section Alignment

variable {ε : Type} {m : Transformer ε} {frame : String} {h : History Float}

/-- Some slot has no answer exactly when some cloud has no correction. -/
theorem mapM_alignSlot_eq_none_iff {stamps : List Float} (reference : Float) :
    (s.mapM fun p => (alignSlot m frame h stamps reference p.2).map (p.1, ·)) = none ↔
      ∃ stamp ∈ s.stamps, chainedCorrection h stamps stamp = none := by
  rw [Keyed.mapM_eq_none_iff]
  constructor
  · rintro ⟨t, slot, hmem, hnone⟩
    cases slot with
    | none => exact absurd hnone nofun
    | some c =>
      exact ⟨c.stamp, List.mem_filterMap.2 ⟨_, hmem, rfl⟩, Option.map_eq_none_iff.1 hnone⟩
  · rintro ⟨stamp, hstamp, hnone⟩
    obtain ⟨⟨t, slot⟩, hmem, hslot⟩ := List.mem_filterMap.1 hstamp
    obtain ⟨c, rfl, rfl⟩ := Option.map_eq_some_iff.1 hslot
    exact ⟨t, some c, hmem, Option.map_eq_none_iff.2 hnone⟩

/-- Alignment has no answer exactly when the clouds jam. -/
theorem alignWith_eq_none_iff :
    s.alignWith m frame h = none ↔ s.Jams h.indexAt := by
  have hjams : s.Jams h.indexAt ↔ ∃ stamp ∈ s.stamps,
      chainedCorrection h (descendingStamps s.stamps) stamp = none := by
    rw [jams_iff h.orderly_indexAt]
    simp only [gap_chainSpans_iff h.orderly_indexAt, chainedCorrection_eq_none_iff]
  rw [hjams]
  unfold alignWith
  dsimp only
  split
  · next hlast =>
    refine iff_of_false nofun ?_
    rintro ⟨stamp, hstamp, -⟩
    rw [List.getLast?_eq_none_iff, descendingStamps_eq_nil_iff] at hlast
    rw [hlast] at hstamp
    exact absurd hstamp List.not_mem_nil
  · next reference hlast =>
    rw [← mapM_alignSlot_eq_none_iff (m := m) reference]
    cases s.mapM fun p =>
        (alignSlot m frame h (descendingStamps s.stamps) reference p.2).map (p.1, ·) with
    | none => exact iff_of_true rfl rfl
    | some parts => exact iff_of_false nofun nofun

end Alignment

end TopicSlots

/-! ## Engines -/

theorem Taken.engine?_eq_none_iff {x : Taken} :
    x.engine? = none ↔ ∃ r, x.turn = .closed r ∧ r.set? = none := by
  unfold engine?
  cases x.turn with
  | kept => exact iff_of_false nofun nofun
  | armed due => exact iff_of_false nofun nofun
  | closed r => simp

namespace Engine

variable {e : Engine} {now : Instant} {r : ClosedRound}

/-- A round that is closed publishes what alignment makes of its slots. -/
def Publishes (e : Engine) (r : ClosedRound) : Prop :=
  ∃ now trigger, r.set? = (r.slots.alignWith e.transformer e.settings.outputFrame
    e.compensator.history).map (e.setOf now trigger)

theorem Publishes.lost_iff (h : e.Publishes r) :
    r.set? = none ↔ r.slots.Jams e.compensator.history.indexAt := by
  obtain ⟨_, _, hset⟩ := h
  rw [hset, Option.map_eq_none_iff, TopicSlots.alignWith_eq_none_iff]

theorem closeRound_publishes {trigger : Trigger}
    (h : (e.closeRound now trigger).turn = .closed r) : e.Publishes r := by
  unfold closeRound at h
  dsimp only at h
  split at h
  · next hnone =>
    cases h
    exact ⟨now, trigger, by rw [hnone]; rfl⟩
  · next aligned hsome =>
    cases h
    exact ⟨now, trigger, by rw [hsome]; rfl⟩

theorem cloud_publishes {t : Topic} {c : Cloud} (h : (e.cloud now t c).2.turn = .closed r) :
    e.Publishes r := by
  unfold Engine.cloud at h
  split at h
  · exact absurd h nofun
  · next packed _ =>
    change (e.takeIn now t packed).turn = .closed r at h
    unfold takeIn at h
    dsimp only at h
    split at h
    · exact absurd h nofun
    · have hpublishes := closeRound_publishes h
      exact hpublishes
    · exact absurd h nofun
    · exact absurd h nofun

theorem fire_publishes (h : (e.fire now).2.turn = .closed r) : e.Publishes r := by
  unfold fire at h
  split at h
  · have hpublishes := closeRound_publishes h
    exact hpublishes
  · exact absurd h nofun

theorem step_publishes {x : Input} (h : (e.step now x).turn = .closed r) : e.Publishes r := by
  cases x with
  | cloud t c => exact cloud_publishes h
  | attempt => exact fire_publishes h
  | aside y => exact absurd h nofun

/-- Whatever closes a round, it is lost exactly when its clouds jam. -/
theorem set?_step {x : Input} (h : (e.step now x).turn = .closed r) :
    r.set? = none ↔ r.slots.Jams e.compensator.history.indexAt :=
  (step_publishes h).lost_iff

/-- An engine goes on after whatever happens to it, except that it closes a round whose clouds jam.
In such a round, and in no other, the corrections ask for an interval whose places are the wrong way
round by more than one. The places are those that the engine's own way of searching its history finds;
every way finds the same place where the reports that are older than a stamp stand in front of the
others. -/
theorem step_lost_iff (e : Engine) (now : Instant) (x : Input) :
    ((e.step now x).engine? = none ↔ ∃ r, (e.step now x).turn = .closed r ∧
      r.slots.Jams e.compensator.history.indexAt) ∧
    (∀ s : TopicSlots, s.Jams e.compensator.history.indexAt ↔
      ∃ stamp ∈ s.stamps, ∃ p ∈ chainSpans stamp (descendingStamps s.stamps), ¬ p.2 < p.1 ∧
        e.compensator.history.indexAt p.2 + 1 < e.compensator.history.indexAt p.1) ∧
    ∀ (b : Bisection 0 e.compensator.history.samples.length) (stamp : Float),
      (e.compensator.history.samples.Pairwise fun v w => w.stamp < stamp → v.stamp < stamp) →
        e.compensator.history.found b stamp = e.compensator.history.indexAt stamp := by
  refine ⟨?_, fun s => TopicSlots.jams_iff (History.orderly_indexAt _),
    fun b stamp hsplit => History.found_eq_indexAt hsplit b⟩
  rw [Taken.engine?_eq_none_iff]
  constructor
  · rintro ⟨r, hturn, hnone⟩
    exact ⟨r, hturn, (set?_step hturn).1 hnone⟩
  · rintro ⟨r, hturn, hjams⟩
    exact ⟨r, hturn, (set?_step hturn).2 hjams⟩

/-- An engine that has three reports and the first of two clouds, whose stamp is no number. -/
def spoiled : Engine :=
  ((ofSettings .pair .empty).run
    [(0, .aside (.velocity ⟨1, 0, 0, 0⟩)), (0, .aside (.velocity ⟨1.25, 0, 0, 0⟩)),
      (0, .aside (.velocity ⟨1.5, 0, 0, 0⟩)),
      (0, .cloud "/left" (.ofPoints (0 / 0) "left" []))]).engine

/-- The other cloud completes a round whose clouds jam. -/
theorem spoiled_jams :
    ∃ r, (spoiled.step 0 (.cloud "/right" (.ofPoints 1.5 "right" []))).turn = .closed r ∧
      r.slots.Jams spoiled.compensator.history.indexAt := by
  rcases takeIn_cases (e := spoiled) (t := "/right") (a := .complete) rfl 0 with
    ⟨-, r, hturn, hcloses, -⟩ | ⟨_, hpending, -⟩ | ⟨hpending, -⟩
  · refine ⟨r, hturn, ?_⟩
    rw [hcloses.slots_eq]
    have hright : (1.5 : Float) ∈ [(0 / 0 : Float), 1.5] := List.mem_cons_of_mem _ List.mem_cons_self
    exact ⟨⟨0 / 0, List.mem_cons_self, by rfl⟩, 1.5, hright, by rfl, by decide +kernel⟩
  · exact absurd hpending nofun
  · exact absurd hpending nofun

/-- Its settings are valid and the cloud is taken in, but there is no engine that goes on. -/
theorem spoiled_lost :
    Synchronizer.start .pair .empty = .ok ⟨.ofSettings .pair .empty, .idle, 0⟩ ∧
    (spoiled.cloud 0 "/right" (.ofPoints 1.5 "right" [])).1 = .ok () ∧
    (spoiled.step 0 (.cloud "/right" (.ofPoints 1.5 "right" []))).engine? = none := by
  obtain ⟨r, hturn, hjams⟩ := spoiled_jams
  refine ⟨Synchronizer.start_eq_ok_iff.2 ⟨SyncSettings.pair_valid, rfl⟩, by rfl, ?_⟩
  exact Taken.engine?_eq_none_iff.2 ⟨r, hturn, (set?_step hturn).2 hjams⟩

/-- Whichever of three reports is looked at first, the place of the last one is found for its stamp, and
no engine goes on after the close. -/
theorem step_lost_iff_spoiled :
    (spoiled.compensator.history.samples.Pairwise fun v w => w.stamp < 1.5 → v.stamp < 1.5) ∧
    (spoiled.step 0 (.cloud "/right" (.ofPoints 1.5 "right" []))).engine? = none ∧
    spoiled.compensator.history.found
        (.probe 0 (.probe 1 (.probe 2 (.found 3) (.found 2)) (.found 1)) (.found 0)) 1.5
      = spoiled.compensator.history.indexAt 1.5 := by
  have hsplit : spoiled.compensator.history.samples.Pairwise
      fun v w => w.stamp < 1.5 → v.stamp < 1.5 := by decide +kernel
  exact ⟨hsplit, (step_lost_iff spoiled 0 _).1.2 spoiled_jams,
    (step_lost_iff spoiled 0 .attempt).2.2 _ 1.5 hsplit⟩

end Engine

end LidarSync
