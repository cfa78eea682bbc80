import LidarSync.Proofs.Round.Slots

/-!
# What a collector keeps

The invariant of a collector (`Collector.Sound`): both sets of slots have exactly its topics, and a
cloud is kept aside only for a topic that has delivered already. Arrivals and closes keep it.
`Collector.arrive_cases` says all that an arrival can do; later proofs cite it and do not open
`Collector.arrive`. `Collector.held` is the view of one topic, with an equation for each operation.
-/

namespace LidarSync

namespace Collector

open Keyed (get? keys Ascends)

/-- Both sets of slots have the topics of the collector, and what is kept aside belongs to topics
that have delivered. -/
structure Sound (c : Collector) : Prop where
  current_keys : keys c.current = ascending c.topics
  overflow_keys : keys c.overflow = ascending c.topics
  delivered : ∀ t, (c.overflow.cloud? t).isSome → (c.current.cloud? t).isSome

variable {c c' : Collector} {t : Topic} {cloud : Cloud} {a : Arrival}

namespace Sound

theorem current_ascends (h : c.Sound) : Ascends c.current := Keyed.ascends_of_keys h.current_keys

theorem overflow_ascends (h : c.Sound) : Ascends c.overflow := Keyed.ascends_of_keys h.overflow_keys

theorem mem_current (h : c.Sound) : t ∈ keys c.current ↔ t ∈ c.topics := by
  rw [h.current_keys, mem_ascending]

theorem mem_overflow (h : c.Sound) : t ∈ keys c.overflow ↔ t ∈ c.topics := by
  rw [h.overflow_keys, mem_ascending]

theorem mem_overflow_of_get? {o : Option Cloud} (h : c.Sound) (ht : get? c.current t = some o) :
    t ∈ keys c.overflow := by
  rw [h.overflow_keys, ← h.current_keys, Keyed.mem_keys_iff, ht]
  rfl

theorem overflow_none (h : c.Sound) (hc : c.current.cloud? t = none) :
    c.overflow.cloud? t = none := by
  by_contra hne
  have hsome := h.delivered t (Option.isSome_iff_ne_none.2 hne)
  rw [hc] at hsome
  exact Bool.false_ne_true hsome

end Sound

/-- All that an arrival can do. On a topic that has delivered it is kept aside, and asks for a
deadline when nothing else is kept aside; on any other topic it fills the slot, and either completes
the round or asks for the deadline of its topic. -/
theorem arrive_cases (h : c.arrive t cloud = some (a, c')) :
    (∃ old, get? c.current t = some (some old) ∧
      c' = { c with overflow := c.overflow.fill t cloud } ∧
      a = .pending (if c.overflow.vacant then some c.timeout else none)) ∨
    (get? c.current t = some none ∧ c' = { c with current := c.current.fill t cloud } ∧
      (c'.current.full = true ∧ a = .complete ∨
        c'.current.full = false ∧ a = .pending (c.firstRearm t))) := by
  unfold arrive at h
  split at h
  · cases h
  · next old hget =>
    obtain ⟨rfl, rfl⟩ := Prod.mk.inj (Option.some.inj h)
    exact Or.inl ⟨old, hget, rfl, rfl⟩
  · next hget =>
    obtain ⟨rfl, rfl⟩ := Prod.mk.inj (Option.some.inj h)
    refine Or.inr ⟨hget, rfl, ?_⟩
    cases hfull : (c.current.fill t cloud).full with
    | true => exact Or.inl ⟨rfl, rfl⟩
    | false => exact Or.inr ⟨rfl, rfl⟩

theorem arrive_eq_none_iff : c.arrive t cloud = none ↔ t ∉ keys c.current := by
  rw [← Keyed.get?_eq_none_iff]
  unfold arrive
  split
  · next hget => simp [hget]
  · next hget => simp [hget]
  · next hget => simp [hget]

theorem Sound.arrive_isSome_iff (h : c.Sound) : (c.arrive t cloud).isSome ↔ t ∈ c.topics := by
  rw [Option.isSome_iff_ne_none, ne_eq, arrive_eq_none_iff, not_not, h.mem_current]

theorem arrive_frame (h : c.arrive t cloud = some (a, c')) :
    c'.topics = c.topics ∧ c'.offsets = c.offsets ∧ c'.timeout = c.timeout := by
  obtain ⟨_, _, rfl, _⟩ | ⟨_, rfl, _⟩ := arrive_cases h
  · exact ⟨rfl, rfl, rfl⟩
  · exact ⟨rfl, rfl, rfl⟩

theorem notSynchronized_arrive (h : c.arrive t cloud = some (a, c')) :
    c'.notSynchronized = c.notSynchronized := by
  obtain ⟨_, _, rfl, _⟩ | ⟨_, rfl, _⟩ := arrive_cases h
  · rfl
  · rfl

theorem ofSettings_sound (s : SyncSettings) : (ofSettings s).Sound where
  current_keys := TopicSlots.keys_empty s.inputTopics
  overflow_keys := TopicSlots.keys_empty s.inputTopics
  delivered t ht := by
    change ((TopicSlots.empty s.inputTopics).cloud? t).isSome at ht
    rw [TopicSlots.cloud?_empty] at ht
    exact absurd ht Bool.false_ne_true

theorem Sound.arrive (h : c.Sound) (ha : c.arrive t cloud = some (a, c')) : c'.Sound := by
  obtain ⟨old, hget, rfl, _⟩ | ⟨hget, rfl, _⟩ := arrive_cases ha
  · have hold : c.current.cloud? t = some old := TopicSlots.cloud?_eq_some_iff.2 hget
    have hmem : t ∈ keys c.overflow := h.mem_overflow_of_get? hget
    refine ⟨h.current_keys, (TopicSlots.keys_fill _ _ _).trans h.overflow_keys, fun t' ht' => ?_⟩
    rw [TopicSlots.cloud?_fill hmem] at ht'
    by_cases ht : t' = t
    · subst ht
      rw [hold]
      rfl
    · rw [if_neg ht] at ht'
      exact h.delivered t' ht'
  · have hmem : t ∈ keys c.current := (TopicSlots.get?_eq_some_none_iff.1 hget).1
    refine ⟨(TopicSlots.keys_fill _ _ _).trans h.current_keys, h.overflow_keys, fun t' ht' => ?_⟩
    rw [TopicSlots.cloud?_fill hmem]
    split
    · rfl
    · exact h.delivered t' ht'

theorem Sound.close (h : c.Sound) (trigger : Trigger) : (c.close trigger).2.Sound := by
  have hempty : ∀ t, ¬ ((TopicSlots.empty c.topics).cloud? t).isSome := by
    intro t
    rw [TopicSlots.cloud?_empty]
    exact Bool.false_ne_true
  cases trigger with
  | complete =>
    exact ⟨TopicSlots.keys_empty _, TopicSlots.keys_empty _, fun t ht => absurd ht (hempty t)⟩
  | timeout =>
    exact ⟨h.overflow_keys, TopicSlots.keys_empty _, fun t ht => absurd ht (hempty t)⟩

theorem close_frame (c : Collector) (trigger : Trigger) :
    (c.close trigger).2.topics = c.topics ∧ (c.close trigger).2.offsets = c.offsets ∧
      (c.close trigger).2.timeout = c.timeout := by
  cases trigger <;> exact ⟨rfl, rfl, rfl⟩

theorem Sound.keys_close (h : c.Sound) (trigger : Trigger) :
    keys (c.close trigger).1 = ascending c.topics := by
  cases trigger with
  | complete => exact (TopicSlots.keys_overlay _ _).trans h.current_keys
  | timeout => exact h.current_keys

/-! ## What is held of a topic -/

/-- The clouds that are held of a topic: the one in its slot and the one kept aside. -/
def held (c : Collector) (t : Topic) : Option Cloud × Option Cloud :=
  (c.current.cloud? t, c.overflow.cloud? t)

theorem held_ofSettings (s : SyncSettings) (t : Topic) : (ofSettings s).held t = (none, none) := by
  unfold held ofSettings
  rw [TopicSlots.cloud?_empty]

/-- What is held of a topic after one cloud more of it. -/
def withCloud (cloud : Cloud) : Option Cloud × Option Cloud → Option Cloud × Option Cloud
  | (none, aside) => (some cloud, aside)
  | (some first, _) => (some first, some cloud)

/-- An arrival adds to what is held of its topic. -/
theorem Sound.held_arrive (h : c.Sound) (ha : c.arrive t cloud = some (a, c')) (t' : Topic) :
    c'.held t' = if t' = t then withCloud cloud (c.held t') else c.held t' := by
  obtain ⟨old, hget, rfl, _⟩ | ⟨hget, rfl, _⟩ := arrive_cases ha
  · have hold : c.current.cloud? t = some old := TopicSlots.cloud?_eq_some_iff.2 hget
    have hmem : t ∈ keys c.overflow := h.mem_overflow_of_get? hget
    unfold held
    rw [TopicSlots.cloud?_fill hmem]
    by_cases ht : t' = t
    · subst ht
      rw [if_pos rfl, if_pos rfl, hold]
      rfl
    · rw [if_neg ht, if_neg ht]
  · obtain ⟨hmem, hnone⟩ := TopicSlots.get?_eq_some_none_iff.1 hget
    unfold held
    rw [TopicSlots.cloud?_fill hmem]
    by_cases ht : t' = t
    · subst ht
      rw [if_pos rfl, if_pos rfl, hnone]
      rfl
    · rw [if_neg ht, if_neg ht]

theorem held_close (c : Collector) (trigger : Trigger) (t : Topic) :
    (c.close trigger).2.held t = match trigger with
      | .complete => (none, none)
      | .timeout => ((c.held t).2, none) := by
  cases trigger with
  | complete => exact Prod.ext (TopicSlots.cloud?_empty _ _) (TopicSlots.cloud?_empty _ _)
  | timeout => exact Prod.ext rfl (TopicSlots.cloud?_empty _ _)

/-- The cloud of a topic that a close hands out. -/
theorem Sound.cloud?_close (h : c.Sound) (trigger : Trigger) (t : Topic) :
    (c.close trigger).1.cloud? t = match trigger with
      | .complete => (c.held t).2.or (c.held t).1
      | .timeout => (c.held t).1 := by
  cases trigger with
  | timeout => rfl
  | complete =>
    change (c.current.overlay c.overflow).cloud? t = (c.overflow.cloud? t).or (c.current.cloud? t)
    by_cases ht : t ∈ c.topics
    · exact TopicSlots.cloud?_overlay (h.mem_current.2 ht)
    · have hc : t ∉ keys c.current := fun hmem => ht (h.mem_current.1 hmem)
      have ho : t ∉ keys c.overflow := fun hmem => ht (h.mem_overflow.1 hmem)
      have htop : t ∉ keys (c.current.overlay c.overflow) := by
        rw [TopicSlots.keys_overlay]
        exact hc
      rw [TopicSlots.cloud?_eq_none_of_not_mem htop, TopicSlots.cloud?_eq_none_of_not_mem hc,
        TopicSlots.cloud?_eq_none_of_not_mem ho]
      rfl

end Collector

end LidarSync
