import LidarSync.Proofs.Round.Alignment
import LidarSync.Proofs.Round.Collector
import LidarSync.Round.Engine

/-!
# What can become of a round

`Move` lists all that an engine can do to its round in progress, with the collector and the deadline
before and afterwards. Later proofs cite `Engine.step_move` and go through its cases; they open
neither the arrival of a cloud nor an attempt nor the closing of a round.
-/

namespace LidarSync

/-- A published set says of its round what the round was. -/
def ClosedRound.Reported (r : ClosedRound) : Prop :=
  ∀ set, r.set? = some set → set.details.trigger = r.trigger ∧
    set.details.missing = r.slots.waiting ∧ (set.reference.isSome = true ↔ r.slots.vacant = false)

/-- A closed round, and the collector that goes on after it. -/
structure ClosedRound.Closes (c : Collector) (trigger : Trigger) (r : ClosedRound) (c' : Collector) :
    Prop where
  trigger_eq : r.trigger = trigger
  slots_eq : r.slots = (c.close trigger).1
  reported : r.Reported
  rest : ∃ topics, c' = { (c.close trigger).2 with notSynchronized := topics }

/-- What can become of a round in progress at an instant. -/
inductive Move (now : Instant) (c : Collector) (d : Deadline) :
    Turn → Collector → Deadline → Prop where
  /-- Nothing happens to the round. -/
  | idle : Move now c d .kept c d
  /-- A cloud is taken in under the old deadline. -/
  | taken {t : Topic} {cloud : Cloud} {c' : Collector}
      (arrives : c.arrive t cloud = some (.pending none, c')) : Move now c d .kept c' d
  /-- A cloud is taken in and asks for a new deadline. -/
  | armed {t : Topic} {cloud : Cloud} {secs : Float} {c' : Collector}
      (arrives : c.arrive t cloud = some (.pending (some secs), c')) :
      Move now c d (.armed (now + delayOf secs)) c' (some (now + delayOf secs))
  /-- A cloud completes the round. -/
  | completed {t : Topic} {cloud : Cloud} {mid : Collector} {r : ClosedRound} {c' : Collector}
      (arrives : c.arrive t cloud = some (.complete, mid)) (closes : r.Closes mid .complete c') :
      Move now c d (.closed r) c' none
  /-- The deadline has come. -/
  | expired {due : Instant} {r : ClosedRound} {c' : Collector} (armed : d = some due)
      (late : due ≤ now) (closes : r.Closes c .timeout c') : Move now c d (.closed r) c' none

theorem Move.frame {now : Instant} {c c' : Collector} {d d' : Deadline} {turn : Turn}
    (h : Move now c d turn c' d') :
    c'.topics = c.topics ∧ c'.offsets = c.offsets ∧ c'.timeout = c.timeout := by
  cases h with
  | idle => exact ⟨rfl, rfl, rfl⟩
  | taken arrives => exact Collector.arrive_frame arrives
  | armed arrives => exact Collector.arrive_frame arrives
  | @completed _ _ mid _ _ arrives closes =>
    obtain ⟨_, rfl⟩ := closes.rest
    obtain ⟨htopics, hoffsets, htimeout⟩ := Collector.arrive_frame arrives
    obtain ⟨htopics', hoffsets', htimeout'⟩ := Collector.close_frame mid .complete
    exact ⟨htopics'.trans htopics, hoffsets'.trans hoffsets, htimeout'.trans htimeout⟩
  | expired _ _ closes =>
    obtain ⟨_, rfl⟩ := closes.rest
    exact Collector.close_frame c .timeout

theorem ClosedRound.Closes.sound {c c' : Collector} {trigger : Trigger} {r : ClosedRound}
    (h : r.Closes c trigger c') (hc : c.Sound) : c'.Sound := by
  obtain ⟨topics, rfl⟩ := h.rest
  have hsound := hc.close trigger
  exact ⟨hsound.current_keys, hsound.overflow_keys, hsound.delivered⟩

theorem Move.sound {now : Instant} {c c' : Collector} {d d' : Deadline} {turn : Turn}
    (h : Move now c d turn c' d') (hc : c.Sound) : c'.Sound := by
  cases h with
  | idle => exact hc
  | taken arrives => exact hc.arrive arrives
  | armed arrives => exact hc.arrive arrives
  | completed arrives closes => exact closes.sound (hc.arrive arrives)
  | expired _ _ closes => exact closes.sound hc

/-- A closed round has one slot for each topic. -/
theorem Move.keys_closed {now : Instant} {c c' : Collector} {d d' : Deadline} {r : ClosedRound}
    (h : Move now c d (.closed r) c' d') (hc : c.Sound) : Keyed.keys r.slots = ascending c.topics := by
  cases h with
  | completed arrives closes =>
    rw [closes.slots_eq, (hc.arrive arrives).keys_close, (Collector.arrive_frame arrives).1]
  | expired _ _ closes => rw [closes.slots_eq, hc.keys_close]

namespace Engine

variable {e : Engine} {now : Instant}

/-! ## Closing a round -/

@[simp] theorem collector_noteTruncations (e : Engine) (n : Nat) :
    (e.noteTruncations n).collector = e.collector := by
  unfold noteTruncations
  split <;> rfl

@[simp] theorem deadline_noteTruncations (e : Engine) (n : Nat) :
    (e.noteTruncations n).deadline = e.deadline := by
  unfold noteTruncations
  split <;> rfl

@[simp] theorem collector_publish (e : Engine) (s : SyncedSet) :
    (e.publish s).collector = e.collector := by
  unfold publish
  split <;> rfl

@[simp] theorem deadline_publish (e : Engine) (s : SyncedSet) :
    (e.publish s).deadline = e.deadline := by
  unfold publish
  split <;> rfl

/-- Closing a round hands out the slots of the collector and leaves the deadline alone, also where
the round is lost. -/
theorem closeRound_closed (e : Engine) (now : Instant) (trigger : Trigger) :
    ∃ r, (e.closeRound now trigger).turn = .closed r ∧
      r.Closes e.collector trigger (e.closeRound now trigger).engine.collector ∧
      (e.closeRound now trigger).engine.deadline = e.deadline := by
  unfold closeRound
  dsimp only
  split
  · exact ⟨_, rfl, ⟨rfl, rfl, nofun, _, rfl⟩, rfl⟩
  · next aligned halign =>
    obtain ⟨hmissing, hreference⟩ := TopicSlots.align_reports halign
    refine ⟨_, rfl, ⟨rfl, rfl, ?_, aligned.notSynchronized, ?_⟩, ?_⟩
    · rintro set hset
      cases Option.some.inj hset
      exact ⟨rfl, hmissing, hreference⟩
    · rw [collector_publish]
    · rw [deadline_publish]
      exact deadline_noteTruncations e _

/-! ## Clouds and attempts -/

/-- A packed cloud that has a slot completes the round, asks for a deadline, or does neither. -/
theorem takeIn_cases {t : Topic} {cloud : Cloud} {a : Arrival} {mid : Collector}
    (h : e.collector.arrive t cloud = some (a, mid)) (now : Instant) :
    (a = .complete ∧ ∃ r, (e.takeIn now t cloud).turn = .closed r ∧
      r.Closes mid .complete (e.takeIn now t cloud).engine.collector ∧
      (e.takeIn now t cloud).engine.deadline = none) ∨
    (∃ secs, a = .pending (some secs) ∧
      (e.takeIn now t cloud).turn = .armed (now + delayOf secs) ∧
      (e.takeIn now t cloud).engine.collector = mid ∧
      (e.takeIn now t cloud).engine.deadline = some (now + delayOf secs)) ∨
    (a = .pending none ∧ (e.takeIn now t cloud).turn = .kept ∧
      (e.takeIn now t cloud).engine.collector = mid ∧
      (e.takeIn now t cloud).engine.deadline = e.deadline) := by
  unfold takeIn
  dsimp only
  rw [h]
  cases a with
  | complete =>
    obtain ⟨r, hturn, hcloses, hdeadline⟩ := closeRound_closed
      { e with
        metrics := e.metrics.tick (Series.cloudsReceived t), collector := mid, deadline := none }
      now .complete
    exact Or.inl ⟨rfl, r, hturn, hcloses, hdeadline⟩
  | pending secs? =>
    cases secs? with
    | some secs => exact Or.inr (Or.inl ⟨secs, rfl, rfl, rfl, rfl⟩)
    | none => exact Or.inr (Or.inr ⟨rfl, rfl, rfl, rfl⟩)

/-- What the arrival of a cloud does to the round. -/
theorem cloud_move (e : Engine) (now : Instant) (t : Topic) (cloud : Cloud) :
    Move now e.collector e.deadline (e.cloud now t cloud).2.turn
      (e.cloud now t cloud).2.engine.collector (e.cloud now t cloud).2.engine.deadline := by
  unfold Engine.cloud
  split
  · exact .idle
  · next packed _ =>
    change Move now e.collector e.deadline (e.takeIn now t packed).turn
      (e.takeIn now t packed).engine.collector (e.takeIn now t packed).engine.deadline
    cases harrive : e.collector.arrive t packed with
    | none =>
      unfold takeIn
      dsimp only
      rw [harrive]
      exact .idle
    | some p =>
      obtain ⟨a, mid⟩ := p
      rcases takeIn_cases harrive now with ⟨rfl, r, hturn, hcloses, hdeadline⟩ |
        ⟨secs, rfl, hturn, hcollector, hdeadline⟩ | ⟨rfl, hturn, hcollector, hdeadline⟩
      · rw [hturn, hdeadline]
        exact .completed harrive hcloses
      · rw [hturn, hcollector, hdeadline]
        exact .armed harrive
      · rw [hturn, hcollector, hdeadline]
        exact .taken harrive

/-- A cloud closes a round only by completing it. -/
theorem trigger_of_cloud {t : Topic} {cloud : Cloud} {r : ClosedRound}
    (h : (e.cloud now t cloud).2.turn = .closed r) : r.trigger = .complete := by
  unfold Engine.cloud at h
  split at h
  · exact absurd h nofun
  · next packed _ =>
    change (e.takeIn now t packed).turn = .closed r at h
    cases harrive : e.collector.arrive t packed with
    | none =>
      unfold takeIn at h
      dsimp only at h
      rw [harrive] at h
      exact absurd h nofun
    | some p =>
      rcases takeIn_cases harrive now with ⟨-, r', hturn, hcloses, -⟩ | ⟨_, -, hturn, -⟩ |
        ⟨-, hturn, -⟩
      · rw [hturn] at h
        cases h
        exact hcloses.trigger_eq
      · rw [hturn] at h
        exact absurd h nofun
      · rw [hturn] at h
        exact absurd h nofun

theorem fire_of_not_due (h : e.deadline.isDue now = false) : e.fire now = (.idle, ⟨e, .kept⟩) := by
  unfold fire
  rw [h]
  rfl

theorem fire_of_due (h : e.deadline.isDue now = true) :
    (e.fire now).1 = .fired ∧ ∃ r, (e.fire now).2.turn = .closed r ∧
      r.Closes e.collector .timeout (e.fire now).2.engine.collector ∧
      (e.fire now).2.engine.deadline = none := by
  unfold fire
  rw [if_pos h]
  obtain ⟨r, hturn, hcloses, hdeadline⟩ :=
    closeRound_closed { e with deadline := none } now .timeout
  exact ⟨rfl, r, hturn, hcloses, hdeadline⟩

/-- The engine itself never finds the round busy, and no attempt sets a deadline. -/
theorem fire_kinds (e : Engine) (now : Instant) :
    ((e.fire now).1 = .fired ∨ (e.fire now).1 = .idle) ∧
      ∀ due, (e.fire now).2.turn ≠ .armed due := by
  cases hdue : e.deadline.isDue now with
  | false =>
    rw [fire_of_not_due hdue]
    exact ⟨Or.inr rfl, nofun⟩
  | true =>
    obtain ⟨hfired, r, hturn, _⟩ := fire_of_due hdue
    rw [hturn]
    exact ⟨Or.inl hfired, nofun⟩

theorem fire_move (e : Engine) (now : Instant) :
    Move now e.collector e.deadline (e.fire now).2.turn (e.fire now).2.engine.collector
      (e.fire now).2.engine.deadline := by
  cases hdue : e.deadline.isDue now with
  | false =>
    rw [fire_of_not_due hdue]
    exact .idle
  | true =>
    obtain ⟨_, r, hturn, hcloses, hdeadline⟩ := fire_of_due hdue
    rw [hturn, hdeadline]
    cases hd : e.deadline with
    | none =>
      rw [hd] at hdue
      exact absurd hdue Bool.false_ne_true
    | some due =>
      rw [hd] at hdue
      exact .expired rfl (of_decide_eq_true hdue) hcloses

/-! ## All inputs -/

/-- What can be asked of an engine beside its rounds. -/
inductive Aside where
  | velocity (v : Velocity Float)
  | compensate (start stop : Float)
  | receive
  | dropReceiver

/-- The engine after something beside its rounds. -/
def aside (e : Engine) : Aside → Engine
  | .velocity v => e.velocity v
  | .compensate start stop => ((e.compensate start stop).map Prod.snd).getD e
  | .receive => { e with output := e.output.receive.2 }
  | .dropReceiver => { e with output := e.output.drop }

/-- All that can happen to an engine before its shutdown. -/
inductive Input where
  | cloud (t : Topic) (cloud : Cloud)
  /-- The deadline task makes an attempt, whether there is a deadline or not. -/
  | attempt
  | aside (x : Aside)

/-- The engine after something happened to it at an instant. -/
def step (e : Engine) (now : Instant) : Input → Taken
  | .cloud t cloud => (e.cloud now t cloud).2
  | .attempt => (e.fire now).2
  | .aside x => ⟨e.aside x, .kept⟩

theorem aside_frame (e : Engine) (x : Aside) :
    (e.aside x).collector = e.collector ∧ (e.aside x).deadline = e.deadline := by
  cases x with
  | velocity v => exact ⟨rfl, rfl⟩
  | receive => exact ⟨rfl, rfl⟩
  | dropReceiver => exact ⟨rfl, rfl⟩
  | compensate start stop =>
    change (((e.compensate start stop).map Prod.snd).getD e).collector = e.collector ∧
      (((e.compensate start stop).map Prod.snd).getD e).deadline = e.deadline
    cases h : e.compensate start stop with
    | none => exact ⟨rfl, rfl⟩
    | some answer =>
      obtain ⟨_, _, rfl⟩ := Option.map_eq_some_iff.1 h
      exact ⟨collector_noteTruncations e _, deadline_noteTruncations e _⟩

/-- Whatever happens, one of the moves happens to the round. -/
theorem step_move (e : Engine) (now : Instant) (x : Input) :
    Move now e.collector e.deadline (e.step now x).turn (e.step now x).engine.collector
      (e.step now x).engine.deadline := by
  cases x with
  | cloud t cloud => exact cloud_move e now t cloud
  | attempt => exact fire_move e now
  | aside x =>
    obtain ⟨hcollector, hdeadline⟩ := aside_frame e x
    change Move now e.collector e.deadline .kept (e.aside x).collector (e.aside x).deadline
    rw [hcollector, hdeadline]
    exact .idle

end Engine

end LidarSync
