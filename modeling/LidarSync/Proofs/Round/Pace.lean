import LidarSync.Proofs.Round.Invariant

/-!
# How often a round is armed

Every arming of a round fills a slot or is the first one for something kept aside, so that a round of
`n` topics is armed `n` times at most. When clouds arrive before the deadline has come, each arming
moves it by one span at most, whatever the clouds are. `Paced` is the invariant of the collector and
the turns so far, and `Bounded` is what it says of the turns alone.
-/

namespace LidarSync

open Keyed (get?)

/-- When the round in progress was armed first. -/
def firstArming (turns : Turns) : Option Instant := (armings turns).getLast?.map Prod.fst

theorem dueIn_of_firstArming {turns : Turns} {first : Instant} (h : firstArming turns = some first) :
    ∃ due, dueIn turns = some due := by
  unfold firstArming at h
  unfold dueIn
  cases harmings : armings turns with
  | nil =>
    rw [harmings] at h
    exact absurd h nofun
  | cons p rest => exact ⟨p.2, rfl⟩

namespace Collector

variable {c c' : Collector} {t : Topic} {cloud : Cloud} {secs : Float}

/-- One if something is kept aside. -/
def asides (c : Collector) : Nat := if c.overflow.vacant then 0 else 1

/-- How many slots are filled, and one more if something is kept aside. -/
def used (c : Collector) : Nat := c.current.filled + c.asides

theorem asides_le_one (c : Collector) : c.asides ≤ 1 := by
  unfold asides
  split <;> omega

theorem Sound.used_le (h : c.Sound) (hfull : c.current.full = false) : c.used ≤ c.topics.length := by
  have hfilled := TopicSlots.filled_lt hfull
  have hkeys := length_ascending_le c.topics
  have haside := c.asides_le_one
  rw [h.current_keys] at hfilled
  unfold used
  omega

theorem Sound.asides_fill {o : Option Cloud} (h : c.Sound) (ht : get? c.current t = some o)
    (cloud : Cloud) : asides { c with overflow := c.overflow.fill t cloud } = 1 := by
  have hfill : ((c.overflow.fill t cloud).cloud? t).isSome := by
    rw [TopicSlots.cloud?_fill (h.mem_overflow_of_get? ht), if_pos rfl]
    rfl
  have hvacant := TopicSlots.vacant_eq_false hfill
  unfold asides
  rw [hvacant]
  rfl

/-- A cloud that asks for a deadline fills a slot, or it is the first one that is kept aside. -/
theorem Sound.used_armed (h : c.Sound) (ha : c.arrive t cloud = some (.pending (some secs), c')) :
    c'.used = c.used + 1 ∧ (c.offsets = [] → c'.asides = c.asides + 1) := by
  obtain ⟨old, hget, rfl, heq⟩ | ⟨hget, rfl, ⟨_, heq⟩ | ⟨_, heq⟩⟩ := arrive_cases ha
  · have hvacant : c.overflow.vacant = true := by
      by_contra hne
      rw [if_neg hne] at heq
      exact absurd heq nofun
    have hbefore : c.asides = 0 := if_pos hvacant
    have hafter := h.asides_fill hget cloud
    refine ⟨?_, fun _ => ?_⟩
    · unfold used
      rw [hbefore, hafter]
    · rw [hbefore, hafter]
  · exact absurd heq nofun
  · refine ⟨?_, fun hoffsets => ?_⟩
    · unfold used
      change (c.current.fill t cloud).filled + c.asides = c.current.filled + c.asides + 1
      rw [TopicSlots.filled_fill h.current_ascends hget]
      omega
    · unfold firstRearm at heq
      rw [hoffsets] at heq
      exact absurd heq nofun

/-- A cloud that asks for no deadline frees nothing. -/
theorem Sound.used_taken (h : c.Sound) (ha : c.arrive t cloud = some (.pending none, c')) :
    c.used ≤ c'.used ∧ c.asides ≤ c'.asides := by
  obtain ⟨old, hget, rfl, _⟩ | ⟨hget, rfl, _⟩ := arrive_cases ha
  · have hasides : c.asides ≤ asides { c with overflow := c.overflow.fill t cloud } := by
      rw [h.asides_fill hget cloud]
      exact c.asides_le_one
    exact ⟨Nat.add_le_add_left hasides _, hasides⟩
  · refine ⟨?_, le_rfl⟩
    unfold used
    change c.current.filled + c.asides ≤ (c.current.fill t cloud).filled + c.asides
    rw [TopicSlots.filled_fill h.current_ascends hget]
    omega

end Collector

/-! ## The invariant -/

/-- The armings of the round in progress are no more than the slots that they used, and each moved
the deadline by no more than a span. -/
structure Paced (span : Nat) (c : Collector) (turns : Turns) : Prop where
  count : (armings turns).length ≤ c.used
  plain : c.offsets = [] → (armings turns).length ≤ c.asides
  pace : ∀ first due, firstArming turns = some first → dueIn turns = some due →
    due ≤ first + (armings turns).length * span

/-- What holds of the armings of a round under given settings. -/
structure Bounded (s : SyncSettings) (span : Nat) (turns : Turns) : Prop where
  count : (armings turns).length ≤ s.inputTopics.length
  plain : s.offsets = [] → (armings turns).length ≤ 1
  pace : ∀ first due, firstArming turns = some first → dueIn turns = some due →
    due ≤ first + (armings turns).length * span

theorem Bounded.due_le {s : SyncSettings} {span : Nat} {turns : Turns} (h : Bounded s span turns)
    {first : Instant} (hfirst : firstArming turns = some first) :
    ∃ due ≤ first + s.inputTopics.length * span, dueIn turns = some due := by
  obtain ⟨due, hdue⟩ := dueIn_of_firstArming hfirst
  refine ⟨due, (h.pace first due hfirst hdue).trans ?_, hdue⟩
  exact Nat.add_le_add_left (Nat.mul_le_mul_right span h.count) first

namespace Paced

variable {span : Nat} {c c' : Collector} {d d' : Deadline} {now : Instant} {turn : Turn}
  {turns : Turns} {t : Topic} {cloud : Cloud} {secs : Float}

theorem ofArmings (c : Collector) (h : armings turns = []) : Paced span c turns where
  count := by rw [h]; exact Nat.zero_le _
  plain _ := by rw [h]; exact Nat.zero_le _
  pace first due hfirst := by
    unfold firstArming at hfirst
    rw [h] at hfirst
    exact absurd hfirst nofun

theorem armed (h : Paced span c turns) (hc : c.Sound)
    (ha : c.arrive t cloud = some (.pending (some secs), c')) (hdelay : delayOf secs ≤ span)
    (hnow : ∀ due, dueIn turns = some due → now ≤ due) :
    Paced span c' ((now, .armed (now + delayOf secs)) :: turns) := by
  obtain ⟨hused, hasides⟩ := hc.used_armed ha
  have hoffsets : c'.offsets = c.offsets := (Collector.arrive_frame ha).2.1
  have harmings : armings ((now, .armed (now + delayOf secs)) :: turns)
      = (now, now + delayOf secs) :: armings turns := rfl
  refine ⟨?_, fun hnone => ?_, fun first due hfirst hdue => ?_⟩
  · rw [harmings, List.length_cons, hused]
    exact Nat.succ_le_succ h.count
  · rw [hoffsets] at hnone
    rw [harmings, List.length_cons, hasides hnone]
    exact Nat.succ_le_succ (h.plain hnone)
  · have hdue : due = now + delayOf secs := (Option.some.inj hdue).symm
    unfold firstArming at hfirst
    rw [harmings, List.getLast?_cons] at hfirst
    rw [harmings, List.length_cons, Nat.succ_mul, hdue]
    cases hlast : (armings turns).getLast? with
    | none =>
      rw [hlast] at hfirst
      have hfirst : now = first := Option.some.inj hfirst
      rw [hfirst]
      exact Nat.add_le_add_left (hdelay.trans (Nat.le_add_left span _)) first
    | some p =>
      rw [hlast] at hfirst
      have hfirst : firstArming turns = some first := by
        unfold firstArming
        rw [hlast]
        exact hfirst
      obtain ⟨old, hold⟩ := dueIn_of_firstArming hfirst
      have hpace := h.pace first old hfirst hold
      have hlate := hnow old hold
      calc now + delayOf secs ≤ old + span := Nat.add_le_add hlate hdelay
        _ ≤ first + (armings turns).length * span + span := Nat.add_le_add_right hpace span
        _ = first + ((armings turns).length * span + span) := Nat.add_assoc _ _ _

/-- Every move keeps the pace, when clouds arrive before the deadline has come. -/
theorem move (h : Paced span c turns) (hc : c.Sound) (hm : Move now c d turn c' d')
    (hdelay : ∀ t cloud secs c', c.arrive t cloud = some (.pending (some secs), c') →
      delayOf secs ≤ span)
    (hnow : ∀ due, dueIn turns = some due → now ≤ due) : Paced span c' ((now, turn) :: turns) := by
  cases hm with
  | idle => exact ⟨h.count, h.plain, h.pace⟩
  | taken arrives =>
    obtain ⟨hused, hasides⟩ := hc.used_taken arrives
    have hoffsets := (Collector.arrive_frame arrives).2.1
    refine ⟨h.count.trans hused, fun hnone => ?_, h.pace⟩
    exact (h.plain (hoffsets ▸ hnone)).trans hasides
  | armed arrives => exact h.armed hc arrives (hdelay _ _ _ _ arrives) hnow
  | completed _ _ => exact ofArmings c' rfl
  | expired _ _ _ => exact ofArmings c' rfl

theorem bounded (h : Paced span c turns) (hc : c.Open) {s : SyncSettings}
    (htopics : c.topics = s.inputTopics) (hoffsets : s.offsets = [] → c.offsets = []) :
    Bounded s span turns where
  count := by
    rw [← htopics]
    exact h.count.trans (hc.toSound.used_le (hc.toSound.full_eq_false_iff.2 hc.waits))
  plain hnone := (h.plain (hoffsets hnone)).trans c.asides_le_one
  pace := h.pace

end Paced

end LidarSync
