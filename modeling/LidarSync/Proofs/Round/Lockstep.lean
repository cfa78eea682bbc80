import LidarSync.Proofs.Round.Latency

/-!
# The synchronizer as an interleaving

A synchronizer lets its task do all that it can before the next call, and its clock moves by whole
milliseconds. So its runs before a shutdown are interleavings that are prompt and punctual, and what
holds of those holds of the synchronizer (`Synchronizer.run_interleaved`).
-/

namespace LidarSync

namespace Synchronizer

open Interplay (Event Along Prompt Punctual along_append)

/-- What can be asked of a synchronizer before its shutdown. -/
inductive Call where
  | cloud (t : Topic) (cloud : Cloud)
  | velocity (v : Velocity Float)
  | compensate (start stop : Float)
  | receive
  | dropReceiver
  | advance (millis : Nat)

/-- The synchronizer after a call; there is none where a round is lost. -/
def call (s : Synchronizer) : Call → Option Synchronizer
  | .cloud t c => (s.cloud t c).map Prod.snd
  | .velocity v => some (s.velocity v)
  | .compensate start stop => (s.compensate start stop).map Prod.snd
  | .receive => some s.receive.2
  | .dropReceiver => some s.dropReceiver
  | .advance millis => s.advance millis

/-- All that the task can do at an instant. -/
def settling : List Event := [.look, .wake, .attempt, .conclude]

/-- A millisecond, and what the task does then. -/
def tick : List Event := .pass nanosPerMilli :: settling

/-- What happens in a call. -/
def Call.events : Call → List Event
  | .cloud t c => [.acquire, .arrive t c, .post, .release] ++ settling
  | .velocity v => [.aside (.velocity v)]
  | .compensate start stop => [.aside (.compensate start stop)]
  | .receive => [.aside .receive]
  | .dropReceiver => [.aside .dropReceiver]
  | .advance millis => (List.replicate millis tick).flatten

/-- A synchronizer between two calls, and what became of its rounds. -/
def interplay (s : Synchronizer) (turns : Turns) : Interplay :=
  { engine := s.engine, scheduler := s.scheduler, now := s.now, turns }

/-- Between two calls the task has looked at the post and done what was due. -/
structure Rested (s : Synchronizer) : Prop where
  post_open : s.scheduler.closed = false
  running : s.scheduler.running = true
  looked : s.scheduler.fresh = false
  ahead : s.scheduler.isDue s.now = false
  whole : nanosPerMilli ∣ s.now

end Synchronizer

namespace Interplay

variable {w : Interplay}

theorem prompt_of_unaided {xs : List Event} (h : ∀ x ∈ xs, ∀ t c, x ≠ .arrive t c) :
    Along Prompt w xs := by
  induction xs generalizing w with
  | nil => trivial
  | cons x xs ih =>
    refine ⟨?_, ih fun y hy => h y (List.mem_cons_of_mem x hy)⟩
    cases x with
    | arrive t c => exact absurd rfl (h _ List.mem_cons_self t c)
    | _ => trivial

theorem next_wake_of_not_due (htask : w.task = .waiting)
    (hdue : w.scheduler.isDue w.now = false) : w.next .wake = w := by
  unfold next
  rw [htask]
  exact if_neg (by rw [hdue]; exact Bool.false_ne_true)

theorem next_attempt_of_waiting (htask : w.task = .waiting) : w.next .attempt = w := by
  unfold next
  rw [htask]

theorem next_conclude_of_waiting (htask : w.task = .waiting) : w.next .conclude = w := by
  unfold next
  rw [htask]

end Interplay

namespace Synchronizer

open Interplay (Event Along Prompt Punctual along_append)

variable {s s' : Synchronizer} {turns : Turns}

theorem ne_arrive_of_mem_tick {x : Event} (h : x ∈ tick) : ∀ t c, x ≠ .arrive t c := by
  rintro t c rfl
  simp [tick, settling] at h

theorem leave_of_open {p : Scheduler} (h : p.closed = false) : p.leave = p := by
  unfold Scheduler.leave
  rw [h]
  rfl

theorem look_frame (p : Scheduler) : p.look.closed = p.closed ∧ p.look.running = p.running := by
  unfold Scheduler.look
  split
  · exact ⟨rfl, rfl⟩
  · exact ⟨rfl, rfl⟩

theorem fresh_look {p : Scheduler} (h : p.running = true) : p.look.fresh = false := by
  unfold Scheduler.look
  rw [h]
  cases hfresh : p.fresh with
  | false => exact hfresh
  | true => rfl

/-- After an attempt that was not contended the task waits for nothing. -/
theorem after_rest {p : Scheduler} {outcome : FireOutcome} (now now' : Instant)
    (h : outcome = .fired ∨ outcome = .idle) :
    (p.after now outcome).running = p.running ∧ (p.after now outcome).isDue now' = false := by
  rcases h with rfl | rfl
  · exact ⟨rfl, Bool.and_false _⟩
  · exact ⟨rfl, Bool.and_false _⟩

theorem engine?_eq_some {x : Taken} {e : Engine} (h : x.engine? = some e) : e = x.engine := by
  unfold Taken.engine? at h
  split at h
  · obtain ⟨_, _, rfl⟩ := Option.map_eq_some_iff.1 h
    rfl
  · exact (Option.some.inj h).symm

theorem settle_of_not_due (hopen : s.scheduler.closed = false)
    (hdue : s.scheduler.look.isDue s.now = false) :
    s.settle = some { s with scheduler := s.scheduler.look } := by
  have hleave := leave_of_open ((look_frame s.scheduler).1.trans hopen)
  unfold settle Scheduler.settle
  simp only [hdue, hleave]
  rfl

theorem settle_of_due (hopen : s.scheduler.closed = false)
    (hdue : s.scheduler.look.isDue s.now = true) (h : s.settle = some s') :
    (s.engine.fire s.now).2.engine?.isSome = true ∧
    s' = { s with
      engine := (s.engine.fire s.now).2.engine
      scheduler := s.scheduler.look.after s.now (s.engine.fire s.now).1 } := by
  have hafter := (s.scheduler.look.after_frame s.now (s.engine.fire s.now).1).1
  have hleave := leave_of_open (hafter.trans ((look_frame s.scheduler).1.trans hopen))
  unfold settle Scheduler.settle Engine.attempt at h
  simp only [hdue, if_true] at h
  obtain ⟨_, hsettled, rfl⟩ := Option.map_eq_some_iff.1 h
  obtain ⟨_, hattempt, rfl⟩ := Option.map_eq_some_iff.1 hsettled
  obtain ⟨engine, hengine, rfl⟩ := Option.map_eq_some_iff.1 hattempt
  refine ⟨by rw [hengine]; rfl, ?_⟩
  rw [← engine?_eq_some hengine]
  dsimp only
  rw [hleave]

/-- All that the task can do at an instant, with nobody else at the lock. -/
theorem settle_interleaved (turns : Turns) (h : s.settle = some s')
    (hopen : s.scheduler.closed = false) (hrunning : s.scheduler.running = true)
    (hwhole : nanosPerMilli ∣ s.now) :
    s'.Rested ∧ Along Punctual (s.interplay turns) settling ∧
      ∃ turns', settling.foldl Interplay.next (s.interplay turns) = s'.interplay turns' := by
  have hlook : (s.interplay turns).next .look =
      { s with scheduler := s.scheduler.look }.interplay turns := Interplay.next_look rfl
  obtain ⟨hlookOpen, hlookRunning⟩ := look_frame s.scheduler
  have hfresh := fresh_look hrunning
  cases hdue : s.scheduler.look.isDue s.now with
  | false =>
    have hwake : (({ s with scheduler := s.scheduler.look } : Synchronizer).interplay turns).next
        .wake = _ := Interplay.next_wake_of_not_due rfl hdue
    rw [settle_of_not_due hopen hdue] at h
    obtain rfl := Option.some.inj h
    refine ⟨⟨hlookOpen.trans hopen, hlookRunning.trans hrunning, hfresh, hdue, hwhole⟩,
      ⟨trivial, trivial, ?_, trivial, trivial⟩, turns, ?_⟩
    · change (((s.interplay turns).next .look).next .wake).guard = .free
      rw [hlook, hwake]
      rfl
    · change ((((s.interplay turns).next .look).next .wake).next .attempt).next .conclude = _
      rw [hlook, hwake, Interplay.next_attempt_of_waiting rfl,
        Interplay.next_conclude_of_waiting rfl]
  | true =>
    obtain ⟨hengine, rfl⟩ := settle_of_due hopen hdue h
    obtain ⟨houtcome, _⟩ := s.engine.fire_kinds s.now
    obtain ⟨hafterOpen, _, hafterFresh⟩ :=
      s.scheduler.look.after_frame s.now (s.engine.fire s.now).1
    have hwake : (({ s with scheduler := s.scheduler.look } : Synchronizer).interplay turns).next
        .wake = _ := Interplay.next_wake rfl hdue
    obtain ⟨hafterRunning, hahead⟩ := after_rest (p := s.scheduler.look) s.now s.now houtcome
    refine ⟨⟨hafterOpen.trans (hlookOpen.trans hopen),
        hafterRunning.trans (hlookRunning.trans hrunning), hafterFresh.trans hfresh, hahead, hwhole⟩,
      ⟨trivial, trivial, ?_, trivial, trivial⟩,
      (s.now, (s.engine.fire s.now).2.turn) :: turns, ?_⟩
    · change (((s.interplay turns).next .look).next .wake).guard = .free
      rw [hlook, hwake]
      rfl
    · change ((((s.interplay turns).next .look).next .wake).next .attempt).next .conclude = _
      rw [hlook, hwake, Interplay.next_attempt rfl]
      unfold Interplay.attempt interplay
      dsimp only
      rw [if_pos hengine, Interplay.next_conclude rfl]
      unfold Interplay.conclude
      dsimp only
      rw [if_neg (Interplay.ne_contended houtcome)]

/-! ## One call -/

namespace Rested

theorem ahead_of_deadline (h : s.Rested) (hsound : (s.interplay turns).Sound) :
    (dueIn turns).isDue s.now = false := by
  have hdeadline : s.engine.deadline = dueIn turns := hsound.deadline_eq_of_ne_gone nofun
  cases hdue : dueIn turns with
  | none => rfl
  | some due =>
    have hwaits : s.scheduler.waitsFor = some due :=
      hsound.waitsFor_eq rfl rfl rfl h.looked (hdeadline.trans hdue)
    have hahead := h.ahead
    unfold Scheduler.isDue at hahead
    rw [h.running, hwaits] at hahead
    exact hahead

theorem punctual_pass (h : s.Rested) : (s.interplay turns).Punctual (.pass nanosPerMilli) := by
  refine ⟨rfl, rfl, h.looked, fun due hwaits => ?_⟩
  have hwaits : s.scheduler.waitsFor = some due := hwaits
  have hahead := h.ahead
  unfold Scheduler.isDue at hahead
  rw [h.running, hwaits] at hahead
  exact add_le_nextTick h.whole (Nat.lt_of_not_le (of_decide_eq_false hahead))

theorem advance (h : s.Rested) (turns : Turns) {millis : Nat}
    (hadvance : s.advance millis = some s') :
    s'.Rested ∧ Along Punctual (s.interplay turns) (List.replicate millis tick).flatten ∧
      ∃ turns', (List.replicate millis tick).flatten.foldl Interplay.next (s.interplay turns) =
        s'.interplay turns' := by
  induction millis generalizing s turns with
  | zero =>
    obtain rfl := Option.some.inj hadvance
    exact ⟨h, trivial, turns, rfl⟩
  | succ millis ih =>
    obtain ⟨mid, hsettle, hrest⟩ := Option.bind_eq_some_iff.1 hadvance
    have hwhole : nanosPerMilli ∣ s.now + nanosPerMilli := (Nat.dvd_add_self_right).2 h.whole
    obtain ⟨hmid, hpunctual, turns', hevents⟩ :=
      settle_interleaved turns hsettle h.post_open h.running hwhole
    obtain ⟨hrested, hpunctual', turns'', hevents'⟩ := ih hmid turns' hrest
    have htick : tick.foldl Interplay.next (s.interplay turns) = mid.interplay turns' := hevents
    rw [List.replicate_succ, List.flatten_cons]
    refine ⟨hrested, along_append.2 ⟨⟨h.punctual_pass, hpunctual⟩, ?_⟩, turns'', ?_⟩
    · rw [htick]
      exact hpunctual'
    · rw [List.foldl_append, htick]
      exact hevents'

end Rested

/-- A synchronizer after the arrival of a cloud, before the task does anything. -/
def arrived (s : Synchronizer) (t : Topic) (c : Cloud) : Synchronizer :=
  { s with
    engine := (s.engine.cloud s.now t c).2.engine
    scheduler := match (s.engine.cloud s.now t c).2.turn.post with
      | some d => s.scheduler.notify d
      | none => s.scheduler }

theorem arrive_interleaved (s : Synchronizer) (turns : Turns) (t : Topic) (c : Cloud) :
    [Event.acquire, .arrive t c, .post, .release].foldl Interplay.next (s.interplay turns) =
      (s.arrived t c).interplay ((s.now, (s.engine.cloud s.now t c).2.turn) :: turns) := by
  have harrive : ((s.interplay turns).next .acquire).next (.arrive t c) =
      { s.interplay turns with guard := .held }.arrive t c := rfl
  change ((((s.interplay turns).next .acquire).next (.arrive t c)).next .post).next .release = _
  rw [harrive]
  unfold Interplay.arrive arrived interplay
  dsimp only
  cases hpost : (s.engine.cloud s.now t c).2.turn.post with
  | none => rfl
  | some d => rfl

theorem settle_of_cloud {t : Topic} {c : Cloud} (h : s.call (.cloud t c) = some s') :
    (s.arrived t c).settle = some s' := by
  obtain ⟨⟨answer, _⟩, hcloud, rfl⟩ := Option.map_eq_some_iff.1 h
  obtain ⟨engine, hengine, hrest⟩ := Option.bind_eq_some_iff.1 hcloud
  obtain ⟨mid, hsettle, hmid⟩ := Option.bind_eq_some_iff.1 hrest
  obtain ⟨-, rfl⟩ := Prod.mk.inj (Option.some.inj hmid)
  rw [engine?_eq_some hengine] at hsettle
  exact hsettle

theorem arrived_frame (s : Synchronizer) (t : Topic) (c : Cloud) :
    (s.arrived t c).scheduler.closed = s.scheduler.closed ∧
    (s.arrived t c).scheduler.running = s.scheduler.running ∧ (s.arrived t c).now = s.now := by
  unfold arrived
  cases hpost : (s.engine.cloud s.now t c).2.turn.post with
  | none => exact ⟨rfl, rfl, rfl⟩
  | some d =>
    dsimp only
    unfold Scheduler.notify
    split
    · exact ⟨rfl, rfl, rfl⟩
    · exact ⟨rfl, rfl, rfl⟩

namespace Rested

theorem aside (h : s.Rested) (turns : Turns) (x : Engine.Aside) :
    Rested { s with engine := s.engine.aside x } ∧
      Along Prompt (s.interplay turns) [.aside x] ∧ Along Punctual (s.interplay turns) [.aside x] ∧
      ∃ turns', [Event.aside x].foldl Interplay.next (s.interplay turns) =
        { s with engine := s.engine.aside x : Synchronizer }.interplay turns' := by
  refine ⟨⟨h.post_open, h.running, h.looked, h.ahead, h.whole⟩, ⟨trivial, trivial⟩,
    ⟨trivial, trivial⟩, turns, rfl⟩

/-- A call leads from rest to rest. -/
theorem call (h : s.Rested) (turns : Turns) (hsound : (s.interplay turns).Sound) {x : Call}
    (hcall : s.call x = some s') :
    s'.Rested ∧ Along Prompt (s.interplay turns) x.events ∧
      Along Punctual (s.interplay turns) x.events ∧
      ∃ turns', x.events.foldl Interplay.next (s.interplay turns) = s'.interplay turns' := by
  cases x with
  | velocity v =>
    obtain rfl := Option.some.inj hcall
    exact h.aside turns (.velocity v)
  | receive =>
    obtain rfl := Option.some.inj hcall
    exact h.aside turns .receive
  | dropReceiver =>
    obtain rfl := Option.some.inj hcall
    exact h.aside turns .dropReceiver
  | compensate start stop =>
    obtain ⟨_, hpose, rfl⟩ := Option.map_eq_some_iff.1 hcall
    obtain ⟨⟨pose, engine⟩, hengine, rfl⟩ := Option.map_eq_some_iff.1 hpose
    have haside : s.engine.aside (.compensate start stop) = engine := by
      change ((s.engine.compensate start stop).map Prod.snd).getD s.engine = engine
      rw [hengine]
      rfl
    rw [← haside]
    exact h.aside turns (.compensate start stop)
  | advance millis =>
    obtain ⟨hrested, hpunctual, hevents⟩ := h.advance turns hcall
    refine ⟨hrested, Interplay.prompt_of_unaided ?_, hpunctual, hevents⟩
    intro x hx
    obtain ⟨ys, hys, hx⟩ := List.mem_flatten.1 hx
    rw [List.eq_of_mem_replicate hys] at hx
    exact ne_arrive_of_mem_tick hx
  | cloud t c =>
    obtain ⟨hclosed, hrunning, hnow⟩ := s.arrived_frame t c
    have harrive := s.arrive_interleaved turns t c
    obtain ⟨hrested, hpunctual, turns', hevents⟩ := settle_interleaved
      ((s.now, (s.engine.cloud s.now t c).2.turn) :: turns) (settle_of_cloud hcall)
      (hclosed.trans h.post_open) (hrunning.trans h.running) (hnow ▸ h.whole)
    refine ⟨hrested, along_append.2 ⟨?_, ?_⟩, along_append.2 ⟨?_, ?_⟩, turns', ?_⟩
    · exact ⟨trivial, h.ahead_of_deadline hsound, trivial, trivial, trivial⟩
    · exact ⟨trivial, trivial, trivial, trivial, trivial⟩
    · exact ⟨trivial, trivial, trivial, trivial, trivial⟩
    · rw [harrive]
      exact hpunctual
    · change (_ ++ settling).foldl _ _ = _
      rw [List.foldl_append, harrive]
      exact hevents

end Rested

/-! ## Runs -/

theorem rested_start (settings : SyncSettings) (g : FrameGraph Float) :
    Rested ⟨.ofSettings settings g, .idle, 0⟩ where
  post_open := rfl
  running := rfl
  looked := rfl
  ahead := rfl
  whole := Nat.dvd_zero _

/-- Every run of a synchronizer before its shutdown is an interleaving that is prompt and
punctual. -/
theorem run_interleaved {settings : SyncSettings} {g : FrameGraph Float} {s₀ : Synchronizer}
    (hstart : start settings g = .ok s₀) {calls : List Call} {s : Synchronizer}
    (h : calls.foldlM call s₀ = some s) :
    s.Rested ∧ Along Prompt (.ofSettings settings g) (calls.flatMap Call.events) ∧
      Along Punctual (.ofSettings settings g) (calls.flatMap Call.events) ∧
      ∃ turns, Interplay.run settings g (calls.flatMap Call.events) = s.interplay turns := by
  obtain ⟨_, rfl⟩ := start_eq_ok_iff.1 hstart
  induction calls using List.reverseRecOn generalizing s with
  | nil =>
    obtain rfl := Option.some.inj h
    exact ⟨rested_start settings g, trivial, trivial, [], rfl⟩
  | append_singleton calls x ih =>
    rw [List.foldlM_append] at h
    obtain ⟨mid, hmid, hlast⟩ := Option.bind_eq_some_iff.1 h
    obtain ⟨s', hcall, hs'⟩ := Option.bind_eq_some_iff.1 hlast
    obtain rfl := Option.some.inj hs'
    obtain ⟨hrested, hprompt, hpunctual, turns, hrun⟩ := ih hmid
    have hsound := Interplay.sound_run settings g (calls.flatMap Call.events)
    rw [hrun] at hsound
    obtain ⟨hrested', hprompt', hpunctual', turns', hevents⟩ := hrested.call turns hsound hcall
    rw [← hrun] at hprompt' hpunctual' hevents
    have hsplit : (calls ++ [x]).flatMap Call.events = calls.flatMap Call.events ++ x.events := by
      rw [List.flatMap_append, List.flatMap_singleton]
    rw [hsplit]
    refine ⟨hrested', along_append.2 ⟨hprompt, hprompt'⟩, along_append.2 ⟨hpunctual, hpunctual'⟩,
      turns', ?_⟩
    unfold Interplay.run
    rw [List.foldl_append]
    exact hevents

end Synchronizer

end LidarSync
