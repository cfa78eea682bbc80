import LidarSync.Proofs.Blueprint.Valid
import LidarSync.Proofs.Round.Turns
import LidarSync.Round.Synchronizer

/-!
# The invariant of a round in progress

What holds between any two things that happen to an engine (`InProgress`): the round waits for some
topic, whatever is kept aside has a deadline, and under a deadline some slot is filled. Every move
keeps it. A timeout does because the slots that it goes on with are those that were kept aside: they
are fewer than those of the round, so some topic still has none. `Engine.run_sound` says it of whole
runs, and of the rounds that they close.
-/

namespace LidarSync

open Keyed (keys)

namespace Collector

variable {c c' : Collector} {t : Topic} {cloud : Cloud} {a : Arrival}

theorem Sound.full_eq_false_iff (h : c.Sound) :
    c.current.full = false ↔ ∃ t ∈ c.topics, c.current.cloud? t = none := by
  rw [← Bool.not_eq_true, TopicSlots.full_iff h.current_ascends]
  constructor
  · intro hfull
    by_contra hnone
    refine hfull fun t ht => Option.isSome_iff_ne_none.2 fun hc => hnone ⟨t, ?_, hc⟩
    exact h.mem_current.1 ht
  · rintro ⟨t, ht, hc⟩ hfull
    have hsome := hfull t (h.mem_current.2 ht)
    rw [hc] at hsome
    exact Bool.false_ne_true hsome

/-- The cloud that arrives is held in the slot of its topic or kept aside. -/
theorem Sound.isSome_arrive (h : c.Sound) (ha : c.arrive t cloud = some (a, c')) :
    (c'.current.cloud? t).isSome := by
  have hheld := h.held_arrive ha t
  rw [if_pos rfl] at hheld
  have hfirst : c'.current.cloud? t = (withCloud cloud (c.held t)).1 := congrArg Prod.fst hheld
  rw [hfirst]
  obtain ⟨first, aside⟩ := c.held t
  cases first <;> rfl

theorem Sound.isSome_of_arrive (h : c.Sound) (ha : c.arrive t cloud = some (a, c')) {t' : Topic}
    (ht' : (c.current.cloud? t').isSome) : (c'.current.cloud? t').isSome := by
  by_cases ht : t' = t
  · subst ht
    exact h.isSome_arrive ha
  · have hheld := h.held_arrive ha t'
    rw [if_neg ht] at hheld
    have hfirst : c'.current.cloud? t' = c.current.cloud? t' := congrArg Prod.fst hheld
    rwa [hfirst]

end Collector

/-! ## A round that waits -/

/-- A collector whose round waits for some topic. -/
structure Collector.Open (c : Collector) : Prop extends Collector.Sound c where
  waits : ∃ t ∈ c.topics, c.current.cloud? t = none

namespace Collector.Open

variable {c c' mid : Collector} {d d' : Deadline} {t : Topic} {cloud : Cloud} {now : Instant}
  {turn : Turn} {r : ClosedRound} {secs? : Option Float}

theorem ofEmpty (hc : c.Sound) (htopics : c.topics ≠ [])
    (hcurrent : ∀ t, c.current.cloud? t = none) : c.Open where
  toSound := hc
  waits := by
    obtain ⟨t, ht⟩ := List.exists_mem_of_ne_nil _ htopics
    exact ⟨t, ht, hcurrent t⟩

theorem topics_ne_nil (h : c.Open) : c.topics ≠ [] := by
  obtain ⟨t, ht, _⟩ := h.waits
  exact List.ne_nil_of_mem ht

/-- A cloud that does not complete the round. -/
theorem pending (h : c.Open) (ha : c.arrive t cloud = some (.pending secs?, c')) : c'.Open := by
  have hsound : c'.Sound := h.toSound.arrive ha
  refine ⟨hsound, ?_⟩
  obtain ⟨_, _, rfl, _⟩ | ⟨_, rfl, hfull⟩ := arrive_cases ha
  · exact h.waits
  · rcases hfull with ⟨_, heq⟩ | ⟨hfull, _⟩
    · exact absurd heq nofun
    · exact hsound.full_eq_false_iff.1 hfull

theorem completed (h : c.Open) (ha : c.arrive t cloud = some (.complete, mid))
    (hr : r.Closes mid .complete c') : c'.Open := by
  have hsound := hr.sound (h.toSound.arrive ha)
  obtain ⟨topics, rfl⟩ := hr.rest
  have htopics : mid.topics ≠ [] := by
    rw [(arrive_frame ha).1]
    exact h.topics_ne_nil
  exact ofEmpty hsound htopics fun t => congrArg Prod.fst (held_close mid .complete t)

/-- The topic that the round waited for has nothing kept aside either. -/
theorem expired (h : c.Open) (hr : r.Closes c .timeout c') : c'.Open := by
  have hsound := hr.sound h.toSound
  obtain ⟨topics, rfl⟩ := hr.rest
  obtain ⟨t, ht, hc⟩ := h.waits
  exact ⟨hsound, t, ht, h.toSound.overflow_none hc⟩

/-- Every move leaves some topic waiting. -/
theorem move (h : c.Open) (hm : Move now c d turn c' d') : c'.Open := by
  cases hm with
  | idle => exact h
  | taken arrives => exact h.pending arrives
  | armed arrives => exact h.pending arrives
  | completed arrives closes => exact h.completed arrives closes
  | expired _ _ closes => exact h.expired closes

end Collector.Open

/-! ## The invariant -/

/-- What holds of the collector and the deadline of a round in progress. -/
structure InProgress (c : Collector) (d : Deadline) : Prop extends Collector.Open c where
  aside_armed : (∃ t, (c.overflow.cloud? t).isSome) → d.isSome
  armed_filled : d.isSome → ∃ t, (c.current.cloud? t).isSome

/-- A closed round had a cloud, and it was closed as complete when no topic lacked one. -/
structure ClosedRound.Proper (r : ClosedRound) : Prop where
  filled : ∃ t, (r.slots.cloud? t).isSome
  complete_iff : r.trigger = .complete ↔ r.slots.waiting = []

namespace InProgress

variable {c c' mid : Collector} {d d' : Deadline} {t : Topic} {cloud : Cloud} {now : Instant}
  {turn : Turn} {r : ClosedRound} {secs : Float} {trigger : Trigger}

/-- A round that nothing is kept aside for, and that has no deadline. -/
theorem ofOpen (hc : c.Open) (haside : ∀ t, c.overflow.cloud? t = none) : InProgress c none where
  toOpen := hc
  aside_armed := by
    rintro ⟨t, ht⟩
    rw [haside t] at ht
    exact absurd ht Bool.false_ne_true
  armed_filled h := absurd h Bool.false_ne_true

theorem taken (h : InProgress c d) (ha : c.arrive t cloud = some (.pending none, c')) :
    InProgress c' d := by
  refine ⟨h.toOpen.pending ha, ?_, fun hd => ?_⟩
  · obtain ⟨_, _, rfl, heq⟩ | ⟨_, rfl, _⟩ := Collector.arrive_cases ha
    -- Without a new deadline, something was kept aside already.
    · intro _
      apply h.aside_armed
      apply TopicSlots.exists_of_not_vacant h.overflow_ascends
      intro hvacant
      rw [if_pos hvacant] at heq
      exact absurd heq nofun
    · exact h.aside_armed
  · obtain ⟨t', ht'⟩ := h.armed_filled hd
    exact ⟨t', h.toSound.isSome_of_arrive ha ht'⟩

theorem armed (h : InProgress c d) (ha : c.arrive t cloud = some (.pending (some secs), c'))
    (due : Instant) : InProgress c' (some due) where
  toOpen := h.toOpen.pending ha
  aside_armed _ := rfl
  armed_filled _ := ⟨t, h.toSound.isSome_arrive ha⟩

theorem proper_of_complete (h : InProgress c d) (ha : c.arrive t cloud = some (.complete, mid))
    (hr : r.Closes mid .complete c') : r.Proper := by
  have hsound : mid.Sound := h.toSound.arrive ha
  have hfull : mid.current.full = true := by
    obtain ⟨_, _, _, heq⟩ | ⟨_, _, ⟨hfull, _⟩ | ⟨_, heq⟩⟩ := Collector.arrive_cases ha
    · exact absurd heq nofun
    · exact hfull
    · exact absurd heq nofun
  have hcloud : ∀ t', (mid.current.cloud? t').isSome → (r.slots.cloud? t').isSome := by
    intro t' ht'
    rw [hr.slots_eq, hsound.cloud?_close]
    change ((mid.overflow.cloud? t').or (mid.current.cloud? t')).isSome
    rw [Option.isSome_or, ht', Bool.or_true]
  have hkeys : keys r.slots = keys mid.current := by
    rw [hr.slots_eq, hsound.keys_close, hsound.current_keys]
  have hascends : Keyed.Ascends r.slots := hsound.current_ascends.congr hkeys
  refine ⟨⟨t, hcloud t (h.toSound.isSome_arrive ha)⟩, iff_of_true hr.trigger_eq ?_⟩
  rw [← TopicSlots.full_iff_waiting, TopicSlots.full_iff hascends, hkeys]
  exact fun t' ht' => hcloud t' ((TopicSlots.full_iff hsound.current_ascends).1 hfull t' ht')

theorem proper_of_timeout (h : InProgress c d) (hd : d.isSome) (hr : r.Closes c .timeout c') :
    r.Proper := by
  have hslots : r.slots = c.current := hr.slots_eq
  refine ⟨?_, iff_of_false ?_ ?_⟩
  · rw [hslots]
    exact h.armed_filled hd
  · rw [hr.trigger_eq]
    nofun
  · rw [hslots, ← TopicSlots.full_iff_waiting, Bool.not_eq_true]
    exact h.toSound.full_eq_false_iff.2 h.waits

/-- Nothing is kept aside for the round after a closed one. -/
theorem overflow_of_closes (hr : r.Closes c trigger c') (t : Topic) :
    c'.overflow.cloud? t = none := by
  obtain ⟨topics, rfl⟩ := hr.rest
  have hkept := congrArg Prod.snd (Collector.held_close c trigger t)
  cases trigger with
  | complete => exact hkept
  | timeout => exact hkept

/-- Every move keeps the invariant. -/
theorem move (h : InProgress c d) (hm : Move now c d turn c' d') : InProgress c' d' := by
  cases hm with
  | idle => exact h
  | taken arrives => exact h.taken arrives
  | armed arrives => exact h.armed arrives _
  | completed arrives closes =>
    exact ofOpen (h.toOpen.completed arrives closes) (overflow_of_closes closes)
  | expired _ _ closes => exact ofOpen (h.toOpen.expired closes) (overflow_of_closes closes)

/-- Every round that is closed is proper, and its set says what it was. -/
theorem closed (h : InProgress c d) (hm : Move now c d (.closed r) c' d') :
    r.Proper ∧ r.Reported := by
  cases hm with
  | completed arrives closes => exact ⟨h.proper_of_complete arrives closes, closes.reported⟩
  | expired armed _ closes =>
    exact ⟨h.proper_of_timeout (by rw [armed]; rfl) closes, closes.reported⟩

end InProgress

/-! ## Runs -/

theorem Synchronizer.start_eq_ok_iff {s : SyncSettings} {g : FrameGraph Float}
    {sync : Synchronizer} :
    Synchronizer.start s g = .ok sync ↔ s.Valid ∧ sync = ⟨.ofSettings s g, .idle, 0⟩ := by
  rw [← s.validate_eq_ok_iff]
  unfold Synchronizer.start
  cases s.validate with
  | error v => exact iff_of_false nofun fun h => nomatch h.1
  | ok u =>
    constructor
    · intro h
      exact ⟨rfl, (Except.ok.inj h).symm⟩
    · rintro ⟨_, rfl⟩
      rfl

namespace Engine

theorem open_ofSettings {s : SyncSettings} (h : s.Valid) (g : FrameGraph Float) :
    (ofSettings s g).collector.Open := by
  have htopics : s.inputTopics ≠ [] :=
    List.ne_nil_of_length_pos (Nat.lt_of_lt_of_le Nat.zero_lt_two h.topics_length)
  have hheld := Collector.held_ofSettings s
  exact .ofEmpty (Collector.ofSettings_sound s) htopics fun t => congrArg Prod.fst (hheld t)

theorem inProgress_ofSettings {s : SyncSettings} (h : s.Valid) (g : FrameGraph Float) :
    InProgress (ofSettings s g).collector (ofSettings s g).deadline := by
  have hheld := Collector.held_ofSettings s
  exact .ofOpen (open_ofSettings h g) fun t => congrArg Prod.snd (hheld t)

theorem inProgress_run {s : SyncSettings} (h : s.Valid) (g : FrameGraph Float)
    (xs : List (Instant × Input)) :
    ((ofSettings s g).run xs).engine.collector.topics = s.inputTopics ∧
    InProgress ((ofSettings s g).run xs).engine.collector
      ((ofSettings s g).run xs).engine.deadline := by
  induction xs using List.reverseRecOn with
  | nil => exact ⟨rfl, inProgress_ofSettings h g⟩
  | append_singleton xs x ih =>
    rw [run_concat]
    have hmove := step_move ((ofSettings s g).run xs).engine x.1 x.2
    exact ⟨hmove.frame.1.trans ih.1, ih.2.move hmove⟩

/-- All rounds that a run closes are proper, and their sets say what they were. -/
theorem closed_run {s : SyncSettings} (h : s.Valid) (g : FrameGraph Float)
    (xs : List (Instant × Input)) {now : Instant} {r : ClosedRound}
    (hr : (now, .closed r) ∈ ((ofSettings s g).run xs).turns) : r.Proper ∧ r.Reported := by
  induction xs using List.reverseRecOn with
  | nil => exact absurd hr List.not_mem_nil
  | append_singleton xs x ih =>
    rw [run_concat] at hr
    rcases List.mem_cons.1 hr with heq | hmem
    · have hmove := step_move ((ofSettings s g).run xs).engine x.1 x.2
      rw [← (Prod.mk.inj heq).2] at hmove
      exact (inProgress_run h g xs).2.closed hmove
    · exact ih hmem

/-- Whatever happens to the engine of a synchronizer after its start, the slots are those of the
configured topics, a topic keeps a cloud aside only when it has delivered, some topic has not, what
is kept aside has a deadline, and under a deadline some topic has delivered. Hence every round that
is closed hands out a cloud, and every set that is published has a reference stamp and says that its
round was complete when no topic is missing. -/
theorem run_sound {s : SyncSettings} {g : FrameGraph Float} {sync : Synchronizer}
    (h : Synchronizer.start s g = .ok sync) (xs : List (Instant × Input)) :
    (keys (sync.engine.run xs).engine.collector.current = ascending s.inputTopics ∧
      keys (sync.engine.run xs).engine.collector.overflow = ascending s.inputTopics) ∧
    (∀ t, ((sync.engine.run xs).engine.collector.overflow.cloud? t).isSome →
      ((sync.engine.run xs).engine.collector.current.cloud? t).isSome) ∧
    (∃ t ∈ s.inputTopics, (sync.engine.run xs).engine.collector.current.cloud? t = none) ∧
    ((∃ t, ((sync.engine.run xs).engine.collector.overflow.cloud? t).isSome) →
      (sync.engine.run xs).engine.deadline.isSome) ∧
    ((sync.engine.run xs).engine.deadline.isSome →
      ∃ t, ((sync.engine.run xs).engine.collector.current.cloud? t).isSome) ∧
    ∀ now r, (now, .closed r) ∈ (sync.engine.run xs).turns →
      (∃ t, (r.slots.cloud? t).isSome) ∧
      ∀ set, r.set? = some set → set.reference.isSome ∧
        (set.details.trigger = .complete ↔ set.details.missing = []) := by
  obtain ⟨hvalid, rfl⟩ := Synchronizer.start_eq_ok_iff.1 h
  obtain ⟨htopics, hround⟩ := inProgress_run hvalid g xs
  refine ⟨⟨?_, ?_⟩, hround.delivered, ?_, hround.aside_armed, hround.armed_filled, fun now r hr => ?_⟩
  · rw [← htopics]
    exact hround.current_keys
  · rw [← htopics]
    exact hround.overflow_keys
  · rw [← htopics]
    exact hround.waits
  · obtain ⟨hproper, hreported⟩ := closed_run hvalid g xs hr
    refine ⟨hproper.filled, fun set hset => ?_⟩
    obtain ⟨htrigger, hmissing, hreference⟩ := hreported set hset
    obtain ⟨t, ht⟩ := hproper.filled
    rw [htrigger, hmissing, hreference]
    exact ⟨TopicSlots.vacant_eq_false ht, hproper.complete_iff⟩

/-- A second cloud of a topic is kept aside, and the round after the timeout goes on with it. -/
theorem run_sound_aside :
    Synchronizer.start .pair .empty = .ok ⟨.ofSettings .pair .empty, .idle, 0⟩ ∧
    ∃ t ∈ ["/left", "/right"], ((ofSettings .pair .empty).run
      [(0, .cloud "/left" (.ofPoints 0 "left" [])), (5, .cloud "/left" (.ofPoints 1 "left" [])),
        (maxDelay, .attempt)]).engine.collector.current.cloud? t = none := by
  have hstart : Synchronizer.start .pair .empty = .ok ⟨.ofSettings .pair .empty, .idle, 0⟩ :=
    Synchronizer.start_eq_ok_iff.2 ⟨SyncSettings.pair_valid, rfl⟩
  exact ⟨hstart, (run_sound hstart _).2.2.1⟩

end Engine

end LidarSync
