import LidarSync.Proofs.Blueprint.Valid
import LidarSync.Proofs.Round.Turns
import LidarSync.Round.Synchronizer

/-!
# Arrivals and the deadline task side by side

Clouds are taken in under the lock of the round, and the deadline task looks at its post, wakes up
and makes attempts without waiting for that lock. `Interplay.next` is one step of either side, and a
list of events is one of their interleavings; an event whose turn it is not changes nothing.

The invariant (`Interplay.Sound`) is about the value that the task waits for. The task forgets it
after every attempt that found the lock free, which is harmless only because a deadline that was set
in the meantime has been posted and not been looked at. `Interplay.Awaits` says in each phase of the
task what it still knows of a deadline that is not new at the post.
-/

namespace LidarSync

theorem Scheduler.notify_of_open {s : Scheduler} (h : s.closed = false) (d : Deadline) :
    s.notify d = { s with posted := d, fresh := true } := by
  have hopen : ¬ s.closed = true := by
    rw [h]
    exact Bool.false_ne_true
  exact if_neg hopen

theorem Scheduler.after_frame (s : Scheduler) (now : Instant) (outcome : FireOutcome) :
    (s.after now outcome).closed = s.closed ∧ (s.after now outcome).posted = s.posted ∧
      (s.after now outcome).fresh = s.fresh := by
  cases outcome <;> exact ⟨rfl, rfl, rfl⟩

/-- Who holds the lock of the round. -/
inductive Guard where
  | free
  /-- Someone holds the lock and has not taken a cloud in. -/
  | held
  /-- Someone has taken a cloud in and is about to post a deadline. -/
  | posting (d : Deadline)
  /-- Someone is about to release the lock. -/
  | done

/-- What the deadline task is about to do. -/
inductive TaskPhase where
  | waiting
  /-- It woke up at an instant and will make an attempt. -/
  | woken (start : Instant)
  /-- The attempt that it made when it woke up has an outcome. -/
  | answered (start : Instant) (outcome : FireOutcome)
  /-- It broke down in an attempt, or it was stopped. -/
  | gone

/-- When the task woke up for the attempt that it is about. -/
def TaskPhase.start? : TaskPhase → Option Instant
  | woken start => some start
  | answered start _ => some start
  | _ => none

/-- An engine under its lock, and the deadline task. -/
structure Interplay where
  engine : Engine
  scheduler : Scheduler
  now : Instant
  guard : Guard := .free
  task : TaskPhase := .waiting
  turns : Turns := []
  /-- When contended attempts were made, and when the task went back to waiting. -/
  retries : List (Instant × Instant) := []

namespace Interplay

/-- What can happen next on either side. -/
inductive Event where
  | pass (nanos : Nat)
  | acquire
  | arrive (t : Topic) (cloud : Cloud)
  | post
  | release
  | aside (x : Engine.Aside)
  | look
  | wake
  | attempt
  | conclude
  | shutdown

/-- A cloud arrives under the lock. -/
def arrive (w : Interplay) (t : Topic) (cloud : Cloud) : Interplay :=
  let taken := (w.engine.cloud w.now t cloud).2
  { w with
    engine := taken.engine
    turns := (w.now, taken.turn) :: w.turns
    guard := match taken.turn.post with
      | some d => .posting d
      | none => .done }

/-- The attempt of a task that woke up at an instant: it is contended when the lock is held. -/
def attempt (w : Interplay) (start : Instant) : Interplay :=
  match w.guard with
  | .free =>
    let (outcome, taken) := w.engine.fire start
    { w with
      engine := taken.engine
      turns := (w.now, taken.turn) :: w.turns
      task := if taken.engine?.isSome then .answered start outcome else .gone }
  | _ => { w with task := .answered start .contended }

/-- The task acts upon the outcome of its attempt. -/
def conclude (w : Interplay) (start : Instant) (outcome : FireOutcome) : Interplay :=
  { w with
    scheduler := w.scheduler.after w.now outcome
    task := .waiting
    retries := if outcome = .contended then (start, w.now) :: w.retries else w.retries }

/-- The deadline is dropped under the lock, and the task is stopped. Clouds can still arrive. -/
def shutdown (w : Interplay) : Interplay :=
  { w with
    engine := { w.engine with deadline := none }
    scheduler := (w.scheduler.notify none).abort
    task := .gone }

/-- One step of either side. -/
def next (w : Interplay) (x : Event) : Interplay :=
  match x, w.guard, w.task with
  | .pass nanos, _, _ => { w with now := w.now + nanos }
  | .acquire, .free, _ => { w with guard := .held }
  | .arrive t cloud, .held, _ => w.arrive t cloud
  | .post, .posting d, _ => { w with scheduler := w.scheduler.notify d, guard := .done }
  | .release, .held, _ => { w with guard := .free }
  | .release, .done, _ => { w with guard := .free }
  | .aside x, _, _ => { w with engine := w.engine.aside x }
  | .look, _, .waiting => { w with scheduler := w.scheduler.look }
  | .wake, _, .waiting => if w.scheduler.isDue w.now then { w with task := .woken w.now } else w
  | .attempt, _, .woken start => w.attempt start
  | .conclude, _, .answered start outcome => w.conclude start outcome
  | .shutdown, .free, _ => w.shutdown
  | _, _, _ => w

/-- A new engine with its task, and nobody at the lock. -/
def ofSettings (s : SyncSettings) (g : FrameGraph Float) : Interplay :=
  { engine := .ofSettings s g, scheduler := .idle, now := 0 }

/-- Where an interleaving leads. -/
def run (s : SyncSettings) (g : FrameGraph Float) (xs : List Event) : Interplay :=
  xs.foldl next (ofSettings s g)

theorem run_concat (s : SyncSettings) (g : FrameGraph Float) (xs : List Event) (x : Event) :
    run s g (xs ++ [x]) = (run s g xs).next x := by
  unfold run
  rw [List.foldl_append]
  rfl

/-! ## What an event does to the engine -/

/-- Only the arrival of a cloud and an attempt that finds the lock free do anything to the round. -/
theorem next_cases (w : Interplay) (x : Event) :
    ((w.next x).turns = w.turns ∧
      ((w.next x).engine = w.engine ∨ (∃ y, x = .aside y ∧ (w.next x).engine = w.engine.aside y) ∨
        (w.next x).engine = { w.engine with deadline := none })) ∨
    (∃ t cloud, x = .arrive t cloud ∧ w.next x = w.arrive t cloud) ∨
    ∃ start, x = .attempt ∧ w.task = .woken start ∧ w.guard = .free ∧
      w.next x = w.attempt start := by
  unfold next
  split
  · exact Or.inl ⟨rfl, Or.inl rfl⟩
  · exact Or.inl ⟨rfl, Or.inl rfl⟩
  · exact Or.inr (Or.inl ⟨_, _, rfl, rfl⟩)
  · exact Or.inl ⟨rfl, Or.inl rfl⟩
  · exact Or.inl ⟨rfl, Or.inl rfl⟩
  · exact Or.inl ⟨rfl, Or.inl rfl⟩
  · exact Or.inl ⟨rfl, Or.inr (Or.inl ⟨_, rfl, rfl⟩)⟩
  · exact Or.inl ⟨rfl, Or.inl rfl⟩
  · split
    · exact Or.inl ⟨rfl, Or.inl rfl⟩
    · exact Or.inl ⟨rfl, Or.inl rfl⟩
  · next start htask =>
    by_cases hguard : w.guard = .free
    · exact Or.inr (Or.inr ⟨start, rfl, htask, hguard, rfl⟩)
    · refine Or.inl ?_
      unfold attempt
      split
      · next hfree => exact absurd hfree hguard
      · exact ⟨rfl, Or.inl rfl⟩
  · exact Or.inl ⟨rfl, Or.inl rfl⟩
  · exact Or.inl ⟨rfl, Or.inr (Or.inr rfl)⟩
  · exact Or.inl ⟨rfl, Or.inl rfl⟩

theorem attempt_of_free {w : Interplay} (hguard : w.guard = .free) (start : Instant) :
    (w.attempt start).engine = (w.engine.fire start).2.engine ∧
    (w.attempt start).turns = (w.now, (w.engine.fire start).2.turn) :: w.turns := by
  unfold attempt
  split
  · exact ⟨rfl, rfl⟩
  · next hne => exact absurd hguard hne

/-- A step adds what an arrival or an attempt makes of the round, and otherwise no turn. -/
theorem next_turns (w : Interplay) (x : Event) :
    (w.next x).turns = w.turns ∨ ∃ now input, (w.next x).turns
      = (w.now, (w.engine.step now input).turn) :: w.turns := by
  rcases w.next_cases x with ⟨hturns, -⟩ | ⟨t, c, -, heq⟩ | ⟨start, -, -, hguard, heq⟩
  · exact Or.inl hturns
  · exact Or.inr ⟨w.now, .cloud t c, by rw [heq]; rfl⟩
  · exact Or.inr ⟨start, .attempt, by rw [heq, (attempt_of_free hguard start).2]; rfl⟩

/-! ## The invariant -/

/-- The task waits for a deadline, or to try again after a contended attempt that was not before
it. -/
def Expects (w : Interplay) (due : Instant) : Prop :=
  w.scheduler.waitsFor = some due ∨
    ∃ a ∈ w.retries, due ≤ a.1 ∧ a.1 ≤ a.2 ∧ w.scheduler.waitsFor = some (a.2 + retryInterval)

/-- The task will not miss a deadline that is not new at the post. -/
def Awaits (w : Interplay) (due : Instant) : Prop :=
  match w.task with
  | .waiting => w.Expects due
  | .woken start => w.Expects due ∧ due ≤ start
  | .answered start .contended => w.Expects due ∧ due ≤ start
  | .answered _ _ => False
  | .gone => True

/-- Nobody is about to post a deadline. -/
def Settled (w : Interplay) : Prop := ∀ d, w.guard ≠ .posting d

/-- What holds of every interleaving. -/
structure Sound (w : Interplay) : Prop where
  post_open : w.scheduler.closed = false
  deadline_eq : w.engine.deadline = dueIn w.turns ∨ w.task = .gone ∧ w.engine.deadline = none
  posting_eq : ∀ d, w.guard = .posting d → d = w.engine.deadline
  posted_eq : w.Settled → ∀ due, w.engine.deadline = some due → w.scheduler.posted = some due
  started : ∀ start, w.task.start? = some start → start ≤ w.now
  awaited : w.Settled → ∀ due, w.engine.deadline = some due →
    w.scheduler.fresh = true ∨ w.Awaits due
  timely : ∀ newer older now r, w.turns = newer ++ (now, .closed r) :: older →
    r.trigger = .timeout → ∃ due ≤ now, dueIn older = some due

variable {w : Interplay}

theorem settled_of_eq {guard : Guard} (h : w.guard = guard) (hne : ∀ d, guard ≠ .posting d) :
    w.Settled := by
  intro d hd
  exact hne d (h.symm.trans hd)

namespace Sound

theorem dueIn_eq (h : w.Sound) {due : Instant} (hdue : w.engine.deadline = some due) :
    dueIn w.turns = some due := by
  rcases h.deadline_eq with heq | ⟨_, hnone⟩
  · exact heq.symm.trans hdue
  · rw [hnone] at hdue
    exact absurd hdue nofun

theorem deadline_eq_of_ne_gone (h : w.Sound) (htask : w.task ≠ .gone) :
    w.engine.deadline = dueIn w.turns :=
  h.deadline_eq.resolve_right fun hgone => htask hgone.1

theorem ofSettings (s : SyncSettings) (g : FrameGraph Float) : Sound (ofSettings s g) where
  post_open := rfl
  deadline_eq := Or.inl rfl
  posting_eq d h := absurd h nofun
  posted_eq _ due h := absurd h nofun
  started start h := absurd h nofun
  awaited _ due h := absurd h nofun
  timely newer older now r h := absurd h (by simp [Interplay.ofSettings])

/-! ### Arrivals -/

/-- A change of hands at the lock, with nothing to post before or after. -/
theorem regard (h : w.Sound) (hsettled : w.Settled) (guard : Guard)
    (hguard : ∀ d, guard ≠ .posting d) : Sound { w with guard := guard } where
  post_open := h.post_open
  deadline_eq := h.deadline_eq
  posting_eq d hd := absurd hd (hguard d)
  posted_eq _ := h.posted_eq hsettled
  started := h.started
  awaited _ := h.awaited hsettled
  timely := h.timely

theorem arrive (h : w.Sound) (hguard : w.guard = .held) (t : Topic) (cloud : Cloud) :
    (w.arrive t cloud).Sound := by
  have hmove := w.engine.cloud_move w.now t cloud
  have hsettled : w.Settled := settled_of_eq hguard nofun
  have hpost := hmove.post_eq
  have hdue : ∀ r, (w.engine.cloud w.now t cloud).2.turn = .closed r → r.trigger = .timeout →
      ∃ due ≤ w.now, dueIn w.turns = some due := by
    intro r hr htrigger
    rw [hr] at hmove
    obtain ⟨due, hle, hdue⟩ := hmove.due_of_timeout htrigger
    exact ⟨due, hle, h.dueIn_eq hdue⟩
  have htimely := forall_closed_cons h.timely hdue
  have hdeadline : (w.engine.cloud w.now t cloud).2.engine.deadline =
        dueIn ((w.now, (w.engine.cloud w.now t cloud).2.turn) :: w.turns) ∨
      w.task = .gone ∧ (w.engine.cloud w.now t cloud).2.engine.deadline = none := by
    rcases h.deadline_eq with heq | ⟨hgone, hnone⟩
    · exact Or.inl (hmove.dueIn_eq heq w.now)
    · exact (hmove.dueIn_eq_or_none hnone w.now).imp_right fun hnone' => ⟨hgone, hnone'⟩
  unfold Interplay.arrive
  dsimp only
  cases hturn : (w.engine.cloud w.now t cloud).2.turn.post with
  | none =>
    rw [hturn] at hpost
    have hsame : (w.engine.cloud w.now t cloud).2.engine.deadline = w.engine.deadline := hpost
    exact {
      post_open := h.post_open
      deadline_eq := hdeadline
      posting_eq := nofun
      posted_eq := fun _ due hdue => h.posted_eq hsettled due (hsame ▸ hdue)
      started := h.started
      awaited := fun _ due hdue => h.awaited hsettled due (hsame ▸ hdue)
      timely := htimely }
  | some d =>
    rw [hturn] at hpost
    exact {
      post_open := h.post_open
      deadline_eq := hdeadline
      posting_eq := fun d' hd' => by rw [← Guard.posting.inj hd', hpost]; rfl
      posted_eq := fun hs => absurd rfl (hs d)
      started := h.started
      awaited := fun hs => absurd rfl (hs d)
      timely := htimely }

theorem post (h : w.Sound) {d : Deadline} (hguard : w.guard = .posting d) :
    Sound { w with scheduler := w.scheduler.notify d, guard := .done } := by
  have hd : d = w.engine.deadline := h.posting_eq d hguard
  rw [Scheduler.notify_of_open h.post_open]
  exact {
    post_open := h.post_open
    deadline_eq := h.deadline_eq
    posting_eq := nofun
    posted_eq := fun _ due hdue => hd.trans hdue
    started := h.started
    awaited := fun _ _ _ => Or.inl rfl
    timely := h.timely }

theorem aside (h : w.Sound) (x : Engine.Aside) :
    Sound { w with engine := w.engine.aside x } := by
  have hsame : (w.engine.aside x).deadline = w.engine.deadline := (w.engine.aside_frame x).2
  exact {
    post_open := h.post_open
    deadline_eq := by
      change (w.engine.aside x).deadline = _ ∨ w.task = .gone ∧ (w.engine.aside x).deadline = none
      rw [hsame]
      exact h.deadline_eq
    posting_eq := fun d hd => (h.posting_eq d hd).trans hsame.symm
    posted_eq := fun hs due hdue => h.posted_eq hs due (hsame.symm.trans hdue)
    started := h.started
    awaited := fun hs due hdue => h.awaited hs due (hsame.symm.trans hdue)
    timely := h.timely }

theorem pass (h : w.Sound) (nanos : Nat) : Sound { w with now := w.now + nanos } :=
  { h with started := fun start hs => Nat.le_add_right_of_le (h.started start hs) }

/-! ### The task -/

theorem look (h : w.Sound) (htask : w.task = .waiting) :
    Sound { w with scheduler := w.scheduler.look } := by
  unfold Scheduler.look
  split
  · exact {
      post_open := h.post_open
      deadline_eq := h.deadline_eq
      posting_eq := h.posting_eq
      posted_eq := h.posted_eq
      started := h.started
      awaited := fun hs due hdue => by
        refine Or.inr ?_
        unfold Awaits
        rw [htask]
        exact Or.inl (h.posted_eq hs due hdue)
      timely := h.timely }
  · exact h

/-- The task wakes up only when every deadline that it expects has come. -/
theorem le_of_expects {due now : Instant} (hdue : w.scheduler.isDue now = true)
    (hexpects : w.Expects due) : due ≤ now := by
  have hisDue : w.scheduler.waitsFor.isDue now = true := (Bool.and_eq_true_iff.1 hdue).2
  rcases hexpects with hwaits | ⟨a, _, hle, hnoted, hwaits⟩
  · rw [hwaits] at hisDue
    exact of_decide_eq_true hisDue
  · rw [hwaits] at hisDue
    have hlate : a.2 + retryInterval ≤ now := of_decide_eq_true hisDue
    exact (hle.trans hnoted).trans ((Nat.le_add_right a.2 retryInterval).trans hlate)

theorem wake (h : w.Sound) (htask : w.task = .waiting) (hdue : w.scheduler.isDue w.now = true) :
    Sound { w with task := .woken w.now } :=
  { h with
    deadline_eq := Or.inl (h.deadline_eq_of_ne_gone (by rw [htask]; nofun))
    started := by
      intro start hs
      exact le_of_eq (Option.some.inj hs).symm
    awaited := by
      intro hs due hd
      refine (h.awaited hs due hd).imp_right fun hawaits => ?_
      unfold Awaits at hawaits
      rw [htask] at hawaits
      exact ⟨hawaits, le_of_expects hdue hawaits⟩ }

theorem contend (h : w.Sound) {start : Instant} (htask : w.task = .woken start) :
    Sound { w with task := .answered start .contended } :=
  { h with
    deadline_eq := Or.inl (h.deadline_eq_of_ne_gone (by rw [htask]; nofun))
    started := by
      intro start' hs
      exact h.started start' (by rw [htask]; exact hs)
    awaited := by
      intro hs due hd
      refine (h.awaited hs due hd).imp_right fun hawaits => ?_
      unfold Awaits at hawaits
      rw [htask] at hawaits
      exact hawaits }

/-- An attempt that finds the lock free: a deadline that it leaves behind is new at the post. -/
theorem fire (h : w.Sound) (hguard : w.guard = .free) {start : Instant}
    (htask : w.task = .woken start) : (w.attempt start).Sound := by
  have hmove := w.engine.fire_move start
  have hsettled : w.Settled := settled_of_eq hguard nofun
  have hstart : start ≤ w.now := h.started start (by rw [htask]; rfl)
  have hleft : ∀ due, (w.engine.fire start).2.engine.deadline = some due →
      w.engine.deadline = some due ∧ w.scheduler.fresh = true := by
    intro due hdue
    cases hisDue : w.engine.deadline.isDue start with
    | true =>
      obtain ⟨_, _, _, _, hnone⟩ := Engine.fire_of_due hisDue
      rw [hnone] at hdue
      exact absurd hdue nofun
    | false =>
      rw [Engine.fire_of_not_due hisDue] at hdue
      have hd : w.engine.deadline = some due := hdue
      refine ⟨hd, (h.awaited hsettled due hd).resolve_right fun hawaits => ?_⟩
      unfold Awaits at hawaits
      rw [htask] at hawaits
      rw [hd] at hisDue
      exact of_decide_eq_false hisDue hawaits.2
  unfold Interplay.attempt
  rw [hguard]
  exact {
    post_open := h.post_open
    deadline_eq := by
      have hdeadline := h.deadline_eq_of_ne_gone (by rw [htask]; nofun)
      exact Or.inl (hmove.dueIn_eq hdeadline w.now)
    posting_eq := fun d hd => absurd hd nofun
    posted_eq := fun _ due hdue => h.posted_eq hsettled due (hleft due hdue).1
    started := by
      intro start' hs
      dsimp only at hs
      split at hs
      · exact (Option.some.inj hs) ▸ hstart
      · exact absurd hs nofun
    awaited := fun _ due hdue => Or.inl (hleft due hdue).2
    timely := by
      refine forall_closed_cons h.timely fun r hr htrigger => ?_
      rw [hr] at hmove
      obtain ⟨due, hle, hdue⟩ := hmove.due_of_timeout htrigger
      exact ⟨due, hle.trans hstart, h.dueIn_eq hdue⟩ }

theorem attempt (h : w.Sound) {start : Instant} (htask : w.task = .woken start) :
    (w.attempt start).Sound := by
  by_cases hguard : w.guard = .free
  · exact h.fire hguard htask
  · have hcontended : w.attempt start = { w with task := .answered start .contended } := by
      unfold Interplay.attempt
      split
      · next hfree => exact absurd hfree hguard
      · rfl
    rw [hcontended]
    exact h.contend htask

theorem conclude (h : w.Sound) {start : Instant} {outcome : FireOutcome}
    (htask : w.task = .answered start outcome) : (w.conclude start outcome).Sound := by
  have hstart : start ≤ w.now := h.started start (by rw [htask]; rfl)
  have hawaited : w.Settled → ∀ due, w.engine.deadline = some due → w.scheduler.fresh = true ∨
      outcome = .contended ∧ due ≤ start := by
    intro hs due hd
    refine (h.awaited hs due hd).imp_right fun hawaits => ?_
    unfold Awaits at hawaits
    rw [htask] at hawaits
    cases outcome with
    | contended => exact ⟨rfl, hawaits.2⟩
    | fired => exact hawaits.elim
    | idle => exact hawaits.elim
    | stopped => exact hawaits.elim
  have hframe := w.scheduler.after_frame w.now outcome
  exact {
    post_open := hframe.1.trans h.post_open
    deadline_eq := Or.inl (h.deadline_eq_of_ne_gone (by rw [htask]; nofun))
    posting_eq := h.posting_eq
    posted_eq := fun hs due hd => hframe.2.1.trans (h.posted_eq hs due hd)
    started := nofun
    awaited := by
      intro hs due hd
      rcases hawaited hs due hd with hfresh | ⟨rfl, hle⟩
      · exact Or.inl (hframe.2.2.trans hfresh)
      · exact Or.inr (Or.inr ⟨(start, w.now), List.mem_cons_self, hle, hstart, rfl⟩)
    timely := h.timely }

theorem shutdown (h : w.Sound) (hguard : w.guard = .free) : w.shutdown.Sound where
  post_open := by
    unfold Interplay.shutdown
    rw [Scheduler.notify_of_open h.post_open]
    exact h.post_open
  deadline_eq := Or.inr ⟨rfl, rfl⟩
  posting_eq d hd := absurd (hguard.symm.trans hd) nofun
  posted_eq _ due hdue := absurd hdue nofun
  started start hs := absurd hs nofun
  awaited _ due hdue := absurd hdue nofun
  timely := h.timely

/-- Every step of either side keeps the invariant. -/
theorem next (h : w.Sound) (x : Event) : (w.next x).Sound := by
  unfold Interplay.next
  split
  · exact h.pass _
  · next hguard => exact h.regard (settled_of_eq hguard nofun) .held nofun
  · next hguard => exact h.arrive hguard _ _
  · next hguard => exact h.post hguard
  · next hguard => exact h.regard (settled_of_eq hguard nofun) .free nofun
  · next hguard => exact h.regard (settled_of_eq hguard nofun) .free nofun
  · exact h.aside _
  · next htask => exact h.look htask
  · next htask =>
    split
    · next hdue => exact h.wake htask hdue
    · exact h
  · next htask => exact h.attempt htask
  · next htask => exact h.conclude htask
  · next hguard => exact h.shutdown hguard
  · exact h

end Sound

theorem sound_run (s : SyncSettings) (g : FrameGraph Float) (xs : List Event) :
    (run s g xs).Sound := by
  induction xs using List.reverseRecOn with
  | nil => exact Sound.ofSettings s g
  | append_singleton xs x ih =>
    rw [run_concat]
    exact ih.next x

/-- No deadline is lost, and none fires early. Whenever the lock is free, and the task has neither
broken down nor been stopped by a shutdown, a deadline is new at the post, or the task waits for it,
or the task will try again ten milliseconds after a contended attempt that was not before it. Every
round that is closed as timed out is closed at its latest deadline or later; a round that was
completed has none any more. -/
theorem deadline_kept (s : SyncSettings) (g : FrameGraph Float) (xs : List Event) :
    ((run s g xs).guard = .free → (run s g xs).task ≠ .gone →
      ∀ due, (run s g xs).engine.deadline = some due →
        (run s g xs).scheduler.fresh = true ∧ (run s g xs).scheduler.posted = some due ∨
        (run s g xs).scheduler.waitsFor = some due ∨
        ∃ a ∈ (run s g xs).retries, due ≤ a.1 ∧ a.1 ≤ a.2 ∧
          (run s g xs).scheduler.waitsFor = some (a.2 + retryInterval)) ∧
    ∀ newer older now r, (run s g xs).turns = newer ++ (now, .closed r) :: older →
      r.trigger = .timeout → ∃ due ≤ now, dueIn older = some due := by
  have hsound := sound_run s g xs
  refine ⟨fun hguard htask due hdue => ?_, hsound.timely⟩
  have hsettled : (run s g xs).Settled := settled_of_eq hguard nofun
  rcases hsound.awaited hsettled due hdue with hfresh | hawaits
  · exact Or.inl ⟨hfresh, hsound.posted_eq hsettled due hdue⟩
  · refine Or.inr ?_
    unfold Awaits at hawaits
    split at hawaits
    · exact hawaits
    · exact hawaits.1
    · exact hawaits.1
    · exact hawaits.elim
    · next hgone => exact absurd hgone htask

/-- Two clouds of one topic, and an attempt that meets someone else at the lock. -/
def contested : List Event :=
  [.acquire, .arrive "/left" (.ofPoints 0 "left" []), .release,
    .acquire, .arrive "/left" (.ofPoints 1 "left" []), .post, .release, .look,
    .pass 100000000, .wake, .acquire, .attempt, .pass 5, .conclude, .release]

/-- After the contended attempt the task waits to try again, and then the round is closed. -/
theorem deadline_kept_contested :
    ((run .pair .empty contested).guard = .free ∧ (run .pair .empty contested).task ≠ .gone ∧
      (run .pair .empty contested).engine.deadline = some 100000000) ∧
    ((run .pair .empty contested).scheduler.fresh = true ∧
        (run .pair .empty contested).scheduler.posted = some 100000000 ∨
      (run .pair .empty contested).scheduler.waitsFor = some 100000000 ∨
      ∃ a ∈ (run .pair .empty contested).retries, 100000000 ≤ a.1 ∧ a.1 ≤ a.2 ∧
        (run .pair .empty contested).scheduler.waitsFor = some (a.2 + retryInterval)) ∧
    ∃ due ≤ 110000005,
      dueIn (run .pair .empty (contested ++ [.pass retryInterval, .wake])).turns = some due := by
  have htask : (run .pair .empty contested).task = .waiting := by rfl
  have halive : (run .pair .empty contested).task ≠ .gone := by
    rw [htask]
    nofun
  have hdue : (run .pair .empty (contested ++ [.pass retryInterval, .wake])).engine.deadline.isDue
      110000005 = true := by rfl
  obtain ⟨_, r, hturn, hcloses, _⟩ := Engine.fire_of_due hdue
  have hturns : (run .pair .empty (contested ++ [.pass retryInterval, .wake] ++ [.attempt])).turns
      = [] ++ (110000005, .closed r)
        :: (run .pair .empty (contested ++ [.pass retryInterval, .wake])).turns := by
    rw [← hturn]
    rfl
  exact ⟨⟨by rfl, halive, by rfl⟩,
    (deadline_kept .pair .empty contested).1 (by rfl) halive _ (by rfl),
    (deadline_kept .pair .empty _).2 [] _ _ r hturns hcloses.trigger_eq⟩

end Interplay

end LidarSync
