import LidarSync.Proofs.Round.Lockstep
import Mathlib.Data.List.Chain

/-!
# The deadline task on its own

`Watch` is the deadline task with its post and a clock, and with notes of what it did: it saw a value
that was new at the post, or it made an attempt. Values are posted and time passes as the
surroundings like, the task looks and tries as late as it likes, and an attempt has any outcome.

What a note leaves the task waiting for (`Note.awaits`) says what the next note can be
(`Note.Follows`), and also when, where time passes only while the task is at rest
(`Note.FollowsInTime`). The notes of a run are chains of these relations, and everything else is read off
such chains. `Watch.run_disciplined` puts it together, and says that the task as it is run, which does
all that it can at every whole millisecond, is one of these.
-/

namespace LidarSync

/-- What the deadline task did, and when. -/
inductive Watch.Note where
  /-- It looked at a value that was new at the post. -/
  | saw (now : Instant) (d : Deadline)
  | tried (now : Instant) (outcome : FireOutcome)
deriving DecidableEq

/-- What can happen next. -/
inductive Watch.Event where
  | notify (d : Deadline)
  | pass (nanos : Nat)
  | look
  | attempt (outcome : FireOutcome)

/-- The deadline task, its post and a clock. At its start the task has seen that there is no
deadline. -/
structure Watch where
  scheduler : Scheduler := .idle
  now : Instant := 0
  latest : Watch.Note := .saw 0 none
  /-- What the task did before, the latest first. -/
  earlier : List Watch.Note := []

namespace Watch

namespace Note

def time : Note → Instant
  | saw now _ => now
  | tried now _ => now

def isSight : Note → Bool
  | saw _ _ => true
  | tried _ _ => false

/-- Whether it is an attempt that was not contended. -/
def settles : Note → Bool
  | saw _ _ => false
  | tried _ outcome => outcome != .contended

/-- What the task waits for after it. -/
def awaits : Note → Deadline
  | saw _ d => d
  | tried now .contended => some (now + retryInterval)
  | tried _ _ => none

/-- When the task wakes up after it: at the first whole millisecond that is not before what it waits
for, or at once if that has come already. -/
def alarm? (n : Note) : Option Instant := n.awaits.map fun due => max n.time (nextTick due)

/-- Whether a note can come next after an older one. -/
def Follows : Note → Note → Prop
  | saw _ _, older => ∀ now, older ≠ tried now .stopped
  | tried now _, older => ∃ due ≤ now, older.awaits = some due

/-- Whether a note comes in time after an older one: an attempt when the task wakes up, and the sight
of a value no later. -/
def FollowsInTime : Note → Note → Prop
  | saw now _, older => ∀ due, older.alarm? = some due → now ≤ due
  | tried now _, older => older.alarm? = some now

end Note

/-- What the task did, the latest first. -/
def notes (w : Watch) : List Note := w.latest :: w.earlier

/-- The value that the task saw last. -/
def seen : List Note → Deadline
  | [] => none
  | .saw _ d :: _ => d
  | .tried _ _ :: older => seen older

/-- The task did something. -/
def note (w : Watch) (s : Scheduler) (n : Note) : Watch :=
  { w with scheduler := s, latest := n, earlier := w.notes }

/-- Whether the task is yet to look at the post. -/
def unread (w : Watch) : Bool := w.scheduler.running && w.scheduler.fresh

def next (w : Watch) : Event → Watch
  | .notify d => { w with scheduler := w.scheduler.notify d }
  | .pass nanos => { w with now := w.now + nanos }
  | .look => if w.unread then w.note w.scheduler.look (.saw w.now w.scheduler.posted) else w
  | .attempt outcome =>
    if w.scheduler.isDue w.now then w.note (w.scheduler.after w.now outcome) (.tried w.now outcome)
    else w

def after (w : Watch) (xs : List Event) : Watch := xs.foldl next w

/-- Where a run leads. -/
def run (xs : List Event) : Watch := after {} xs

theorem run_concat (xs : List Event) (x : Event) : run (xs ++ [x]) = (run xs).next x := by
  unfold run after
  rw [List.foldl_append]
  rfl

theorem run_append (xs ys : List Event) : run (xs ++ ys) = (run xs).after ys := List.foldl_append

/-- The task has nothing to do before some later instant. -/
def AtRest (w : Watch) : Prop :=
  w.scheduler.running = true →
    w.scheduler.fresh = false ∧ ∀ due, w.scheduler.waitsFor = some due → w.now < nextTick due

/-- Time passes only when the task has looked at the post, and no further than to the whole
millisecond at which it wakes up; it wakes up at whole milliseconds only. -/
def Allows (w : Watch) : Event → Prop
  | .pass nanos => w.scheduler.running = true →
      w.scheduler.fresh = false ∧
        ∀ due, w.scheduler.waitsFor = some due → w.now + nanos ≤ nextTick due
  | .attempt _ => ∀ due, w.scheduler.waitsFor = some due → nextTick due ≤ w.now
  | _ => True

/-- Every event of a run is allowed where it happens. -/
def Punctual (xs : List Event) : Prop := ∀ ys x zs, xs = ys ++ x :: zs → (run ys).Allows x

theorem Punctual.init {xs : List Event} {x : Event} (h : Punctual (xs ++ [x])) :
    Punctual xs ∧ (run xs).Allows x :=
  ⟨fun ys y zs heq => h ys y (zs ++ [x]) (by rw [heq, List.append_assoc, List.cons_append]),
    h xs x [] rfl⟩

theorem Punctual.concat {xs : List Event} {x : Event} (h : Punctual xs) (hx : (run xs).Allows x) :
    Punctual (xs ++ [x]) := by
  intro ys y zs heq
  cases zs using List.reverseRecOn with
  | nil =>
    obtain ⟨rfl, hlast⟩ := List.append_inj' heq rfl
    rw [← (List.cons.inj hlast).1]
    exact hx
  | append_singleton zs z =>
    rw [← List.cons_append, ← List.append_assoc] at heq
    exact h ys y zs (List.append_inj' heq rfl).1

/-! ## Chains of notes -/

section Chains

variable {l newer older between : List Note} {n : Note} {now : Instant} {outcome : FireOutcome}

/-- What has come has been seen: the task never waits for anything earlier than the value that it
saw last. -/
theorem exists_seen_le (hchain : l.IsChain Note.Follows)
    (holdest : l.getLast? = some (.saw 0 none)) {due : Instant} (hl : l.head? = some n)
    (hdue : n.awaits = some due) : ∃ d ≤ due, seen l = some d := by
  induction l generalizing n due with
  | nil => exact absurd hl nofun
  | cons m older ih =>
    obtain rfl := Option.some.inj hl
    cases m with
    | saw now d => exact ⟨due, le_rfl, hdue⟩
    | tried now outcome =>
      cases older with
      | nil => exact absurd (Option.some.inj holdest) nofun
      | cons m older =>
        obtain ⟨⟨due', hle, hawaits⟩, hrest⟩ := List.isChain_cons_cons.1 hchain
        obtain ⟨d, hd, hseen⟩ := ih hrest holdest rfl hawaits
        have hretry : now ≤ due := by
          cases outcome with
          | contended =>
            rw [← Option.some.inj hdue]
            exact Nat.le_add_right now retryInterval
          | fired => exact absurd hdue nofun
          | idle => exact absurd hdue nofun
          | stopped => exact absurd hdue nofun
        exact ⟨d, hd.trans (hle.trans hretry), hseen⟩

/-- Two notes one after the other. -/
theorem of_split {R : Note → Note → Prop} {m : Note} (hchain : l.IsChain R)
    (hl : l = newer ++ m :: n :: older) : R m n := by
  rw [hl] at hchain
  exact (List.isChain_cons_cons.1 hchain.right_of_append).1

/-- No attempt follows upon a note that leaves nothing to wait for. -/
theorem exists_sight (hchain : l.IsChain Note.Follows)
    (hl : l = newer ++ .tried now outcome :: between ++ n :: older) (hn : n.awaits = none) :
    ∃ m ∈ between, m.isSight = true := by
  have hnext : ∀ m : Note, m.Follows n → m.isSight = true := by
    intro m hm
    cases m with
    | saw _ _ => rfl
    | tried _ _ =>
      obtain ⟨due, -, hdue⟩ := hm
      exact absurd (hn.symm.trans hdue) nofun
  cases between using List.reverseRecOn with
  | nil =>
    rw [List.append_assoc] at hl
    have hattempt := hnext _ (of_split hchain hl)
    exact absurd hattempt nofun
  | append_singleton between m =>
    have hsplit : l = (newer ++ .tried now outcome :: between) ++ m :: n :: older := by
      rw [hl]
      simp only [List.append_assoc, List.cons_append, List.nil_append]
    exact ⟨m, List.mem_append_right between (List.mem_singleton_self m),
      hnext m (of_split hchain hsplit)⟩

/-- Nothing but the latest of the attempts for one value was not contended. -/
theorem countP_settles_le (hchain : l.IsChain Note.Follows)
    (hsight : ∀ m ∈ l, m.isSight = false) : l.countP Note.settles ≤ 1 := by
  cases l with
  | nil => exact Nat.zero_le 1
  | cons newest older =>
    have hcontended : ∀ m ∈ older, ¬ m.settles = true := by
      intro m hm hsettles
      obtain ⟨between, rest, rfl⟩ := List.append_of_mem hm
      cases newest with
      | saw now d => exact absurd (hsight _ List.mem_cons_self) nofun
      | tried now outcome =>
        have hawaits : m.awaits = none := by
          cases m with
          | saw _ _ => exact absurd hsettles nofun
          | tried _ outcome' =>
            cases outcome' with
            | contended => exact absurd hsettles nofun
            | fired => rfl
            | idle => rfl
            | stopped => rfl
        have hsplit : Note.tried now outcome :: (between ++ m :: rest)
            = [] ++ Note.tried now outcome :: between ++ m :: rest := rfl
        obtain ⟨sight, hmem, hsees⟩ := exists_sight hchain hsplit hawaits
        have hno := hsight sight (List.mem_cons_of_mem _ (List.mem_append_left _ hmem))
        exact absurd (hno.symm.trans hsees) nofun
    rw [List.countP_cons, List.countP_eq_zero.2 hcontended]
    split
    · exact le_rfl
    · exact Nat.zero_le 1

end Chains

/-! ## The invariant -/

/-- What holds of every run. -/
structure Sound (w : Watch) : Prop where
  post_open : w.scheduler.closed = false
  running_iff : w.scheduler.running = true ↔ ∀ now, w.latest ≠ .tried now .stopped
  waits : w.scheduler.running = true → w.scheduler.waitsFor = w.latest.awaits
  heard : w.scheduler.fresh = false → seen w.notes = w.scheduler.posted
  past : w.latest.time ≤ w.now
  chain : w.notes.IsChain Note.Follows
  oldest : w.notes.getLast? = some (.saw 0 none)

variable {w : Watch}

theorem awaits_of_isDue {s : Scheduler} {now : Instant} (h : s.isDue now = true) :
    s.running = true ∧ ∃ due ≤ now, s.waitsFor = some due := by
  unfold Scheduler.isDue Deadline.isDue at h
  obtain ⟨hrunning, hdue⟩ := Bool.and_eq_true_iff.1 h
  refine ⟨hrunning, ?_⟩
  cases hwaits : s.waitsFor with
  | none =>
    rw [hwaits] at hdue
    exact absurd hdue nofun
  | some due =>
    rw [hwaits] at hdue
    exact ⟨due, of_decide_eq_true hdue, rfl⟩

namespace Sound

theorem start : Sound {} where
  post_open := rfl
  running_iff := iff_of_true rfl nofun
  waits _ := rfl
  heard _ := rfl
  past := le_rfl
  chain := List.isChain_singleton _
  oldest := rfl

theorem look (h : w.Sound) (hunread : w.unread = true) :
    Sound (w.note w.scheduler.look (.saw w.now w.scheduler.posted)) := by
  obtain ⟨hrunning, hfresh⟩ := Bool.and_eq_true_iff.1 hunread
  have hlook : w.scheduler.look =
      { w.scheduler with waitsFor := w.scheduler.posted, fresh := false } := if_pos hunread
  rw [hlook]
  exact {
    post_open := h.post_open
    running_iff := iff_of_true hrunning nofun
    waits := fun _ => rfl
    heard := fun _ => rfl
    past := le_rfl
    chain := List.isChain_cons_cons.2 ⟨h.running_iff.1 hrunning, h.chain⟩
    oldest := h.oldest }

theorem attempt (h : w.Sound) (hdue : w.scheduler.isDue w.now = true) (outcome : FireOutcome) :
    Sound (w.note (w.scheduler.after w.now outcome) (.tried w.now outcome)) := by
  obtain ⟨hrunning, due, hle, hwaits⟩ := awaits_of_isDue hdue
  obtain ⟨hclosed, hposted, hfresh⟩ := w.scheduler.after_frame w.now outcome
  have hfollows : (Note.tried w.now outcome).Follows w.latest :=
    ⟨due, hle, (h.waits hrunning).symm.trans hwaits⟩
  refine {
    post_open := hclosed.trans h.post_open
    running_iff := ?_
    waits := ?_
    heard := fun hread => (h.heard (hfresh.symm.trans hread)).trans hposted.symm
    past := le_rfl
    chain := List.isChain_cons_cons.2 ⟨hfollows, h.chain⟩
    oldest := h.oldest }
  · cases outcome with
    | fired => exact iff_of_true hrunning nofun
    | contended => exact iff_of_true hrunning nofun
    | idle => exact iff_of_true hrunning nofun
    | stopped => exact iff_of_false nofun fun hne => hne w.now rfl
  · intro hstill
    cases outcome with
    | fired => rfl
    | contended => rfl
    | idle => rfl
    | stopped => exact absurd hstill nofun

theorem next (h : w.Sound) (x : Event) : (w.next x).Sound := by
  cases x with
  | notify d =>
    change Sound { w with scheduler := w.scheduler.notify d }
    rw [Scheduler.notify_of_open h.post_open]
    exact { h with heard := nofun }
  | pass nanos => exact { h with past := h.past.trans (Nat.le_add_right w.now nanos) }
  | look =>
    dsimp only [Watch.next]
    split
    · next hunread => exact h.look hunread
    · exact h
  | attempt outcome =>
    dsimp only [Watch.next]
    split
    · next hdue => exact h.attempt hdue outcome
    · exact h

end Sound

theorem sound_run (xs : List Event) : (run xs).Sound := by
  induction xs using List.reverseRecOn with
  | nil => exact Sound.start
  | append_singleton xs x ih =>
    rw [run_concat]
    exact ih.next x

/-! ## Punctual runs -/

/-- What holds of every punctual run. -/
structure OnTime (w : Watch) : Prop where
  chain : w.notes.IsChain Note.FollowsInTime
  ahead : w.scheduler.running = true → ∀ due, w.latest.alarm? = some due → w.now ≤ due

/-- What the task waits for, as the time at which it wakes up. -/
theorem Sound.alarm_eq (h : w.Sound) (hrunning : w.scheduler.running = true) {due : Instant}
    (hwaits : w.scheduler.waitsFor = some due) :
    w.latest.alarm? = some (max w.latest.time (nextTick due)) := by
  unfold Note.alarm?
  rw [← h.waits hrunning, hwaits]
  rfl

/-- The task does not wake up before the note after which it does. -/
theorem Note.time_le_alarm {n : Note} {due : Instant} (h : n.alarm? = some due) : n.time ≤ due := by
  obtain ⟨_, -, rfl⟩ := Option.map_eq_some_iff.1 h
  exact le_max_left _ _

namespace OnTime

theorem start : OnTime {} where
  chain := List.isChain_singleton _
  ahead _ _ h := absurd h nofun

-- What is asked of a pause is said of what the task waits for, and that is told by its latest note.
theorem pass (h : w.OnTime) (hsound : w.Sound) {nanos : Nat} (hx : w.Allows (.pass nanos)) :
    OnTime { w with now := w.now + nanos } where
  chain := h.chain
  ahead hrunning due hdue := by
    obtain ⟨-, hle⟩ := hx hrunning
    obtain ⟨due', hawaits, rfl⟩ := Option.map_eq_some_iff.1 hdue
    exact (hle due' ((hsound.waits hrunning).trans hawaits)).trans (le_max_right _ _)

theorem look (h : w.OnTime) (hunread : w.unread = true) :
    OnTime (w.note w.scheduler.look (.saw w.now w.scheduler.posted)) where
  chain := List.isChain_cons_cons.2 ⟨h.ahead (Bool.and_eq_true_iff.1 hunread).1, h.chain⟩
  ahead _ _ hdue := Note.time_le_alarm hdue

theorem attempt (h : w.OnTime) (hsound : w.Sound) (hdue : w.scheduler.isDue w.now = true)
    {outcome : FireOutcome} (hx : w.Allows (.attempt outcome)) :
    OnTime (w.note (w.scheduler.after w.now outcome) (.tried w.now outcome)) where
  chain := by
    obtain ⟨hrunning, due, -, hwaits⟩ := awaits_of_isDue hdue
    have halarm := hsound.alarm_eq hrunning hwaits
    have hnow : max w.latest.time (nextTick due) = w.now :=
      le_antisymm (max_le hsound.past (hx due hwaits)) (h.ahead hrunning _ halarm)
    exact List.isChain_cons_cons.2 ⟨halarm.trans (congrArg some hnow), h.chain⟩
  ahead _ _ hdue := Note.time_le_alarm hdue

theorem next (h : w.OnTime) (hsound : w.Sound) {x : Event} (hx : w.Allows x) :
    (w.next x).OnTime := by
  cases x with
  | notify d =>
    change OnTime { w with scheduler := w.scheduler.notify d }
    rw [Scheduler.notify_of_open hsound.post_open]
    exact { h with }
  | pass nanos => exact h.pass hsound hx
  | look =>
    dsimp only [Watch.next]
    split
    · next hunread => exact h.look hunread
    · exact h
  | attempt outcome =>
    dsimp only [Watch.next]
    split
    · next hdue => exact h.attempt hsound hdue hx
    · exact h

end OnTime

theorem onTime_run {xs : List Event} (h : Punctual xs) : (run xs).OnTime := by
  induction xs using List.reverseRecOn with
  | nil => exact OnTime.start
  | append_singleton xs x ih =>
    obtain ⟨hxs, hx⟩ := h.init
    rw [run_concat]
    exact (ih hxs).next (sound_run xs) hx

/-! ## The task as it is run -/

/-- A whole millisecond that is not before an instant is not before its tick. -/
theorem nextTick_le {t now : Instant} (hwhole : nanosPerMilli ∣ now) (h : t ≤ now) :
    nextTick t ≤ now := by
  obtain ⟨k, rfl⟩ := hwhole
  have hround : ∀ k n : Nat, n ≤ 1000000 * k →
      (n + 1000000 - 1) / 1000000 * 1000000 ≤ 1000000 * k := by
    intro k n hle
    omega
  exact hround k t h

/-- Ticks are a retry apart when the instants are. -/
theorem nextTick_add_retryInterval (t : Instant) :
    nextTick (t + retryInterval) = nextTick t + retryInterval := by
  have hround : ∀ n : Nat, (n + 10 * 1000000 + 1000000 - 1) / 1000000 * 1000000
      = (n + 1000000 - 1) / 1000000 * 1000000 + 10 * 1000000 := by
    intro n
    omega
  exact hround t

/-- Whether the task has woken up. -/
def awake (w : Watch) : Bool :=
  w.scheduler.running && Deadline.isDue (w.scheduler.waitsFor.map nextTick) w.now

/-- All that the task does at an instant, if an attempt has this outcome then. -/
def settling (w : Watch) (outcome : FireOutcome) : List Event :=
  if (w.next .look).awake then [.look, .attempt outcome] else [.look]

theorem next_look (w : Watch) :
    (w.next .look).scheduler = w.scheduler.look ∧ (w.next .look).now = w.now := by
  dsimp only [Watch.next]
  split
  · exact ⟨rfl, rfl⟩
  · next hread => exact ⟨(if_neg hread).symm, rfl⟩

theorem awake_eq_true_iff : w.awake = true ↔ w.scheduler.running = true ∧
    ∃ due, w.scheduler.waitsFor = some due ∧ nextTick due ≤ w.now := by
  unfold awake Deadline.isDue
  cases w.scheduler.waitsFor with
  | none => simp
  | some due => simp

/-- A task that has woken up has something to try. -/
theorem next_attempt_of_awake (h : w.awake = true) (outcome : FireOutcome) :
    w.next (.attempt outcome) =
      w.note (w.scheduler.after w.now outcome) (.tried w.now outcome) := by
  obtain ⟨hrunning, due, hwaits, hle⟩ := awake_eq_true_iff.1 h
  refine if_pos ?_
  unfold Scheduler.isDue Deadline.isDue
  rw [hrunning, hwaits]
  exact decide_eq_true ((le_nextTick due).trans hle)

/-- After an attempt the task is at rest, unless there is something new at the post. -/
theorem atRest_attempt (hread : w.scheduler.fresh = false) (outcome : FireOutcome) (n : Note) :
    (w.note (w.scheduler.after w.now outcome) n).AtRest := by
  intro hrunning
  refine ⟨(w.scheduler.after_frame w.now outcome).2.2.trans hread, ?_⟩
  intro due hwaits
  cases outcome with
  | fired => exact absurd hwaits nofun
  | idle => exact absurd hwaits nofun
  | stopped => exact absurd hrunning nofun
  | contended =>
    rw [← Option.some.inj hwaits]
    have hretry : w.now < w.now + retryInterval := Nat.lt_add_of_pos_right (by decide)
    exact hretry.trans_le (le_nextTick _)

/-- The task comes to rest without time passing. -/
theorem settling_leads (w : Watch) (outcome : FireOutcome) :
    (w.after (w.settling outcome)).AtRest ∧ (w.after (w.settling outcome)).now = w.now := by
  obtain ⟨hlook, hnow⟩ := w.next_look
  have hread : (w.next .look).scheduler.running = true → (w.next .look).scheduler.fresh = false := by
    intro hrunning
    rw [hlook] at hrunning ⊢
    exact Synchronizer.fresh_look ((Synchronizer.look_frame w.scheduler).2.symm.trans hrunning)
  unfold settling
  split
  · next hawake =>
    have hrunning := (awake_eq_true_iff.1 hawake).1
    change ((w.next .look).next (.attempt outcome)).AtRest ∧
      ((w.next .look).next (.attempt outcome)).now = _
    rw [next_attempt_of_awake hawake]
    exact ⟨atRest_attempt (hread hrunning) outcome _, hnow⟩
  · next hasleep =>
    refine ⟨fun hrunning => ⟨hread hrunning, fun due hwaits => ?_⟩, hnow⟩
    by_contra hle
    exact hasleep (awake_eq_true_iff.2 ⟨hrunning, due, hwaits, Nat.le_of_not_lt hle⟩)

theorem Punctual.settling {xs : List Event} (h : Punctual xs) (outcome : FireOutcome) :
    Punctual (xs ++ (run xs).settling outcome) := by
  have hlook : Punctual (xs ++ [.look]) := h.concat trivial
  unfold Watch.settling
  split
  · next hawake =>
    have hsplit : xs ++ [.look, .attempt outcome] = (xs ++ [.look]) ++ [Event.attempt outcome] := by
      rw [List.append_assoc, List.singleton_append]
    rw [hsplit]
    refine hlook.concat ?_
    rw [run_concat]
    intro due hwaits
    obtain ⟨-, due', hwaits', hle⟩ := awake_eq_true_iff.1 hawake
    rw [Option.some.inj (hwaits.symm.trans hwaits')]
    exact hle
  · exact hlook

/-- At a whole millisecond, that is what the task is made to do, with the outcome that the attempt
has. -/
theorem settle_eq (hopen : w.scheduler.closed = false) (hwhole : nanosPerMilli ∣ w.now) {σ : Type}
    {fire : Instant → σ → Option (FireOutcome × σ)} {x x' : σ} {s' : Scheduler}
    (h : w.scheduler.settle fire w.now x = some (s', x')) :
    ∃ outcome, (w.after (w.settling outcome)).scheduler = s' ∧
      if (w.next .look).awake then fire w.now x = some (outcome, x') else x' = x := by
  obtain ⟨hlook, hnow⟩ := w.next_look
  have hclosed := (Synchronizer.look_frame w.scheduler).1.trans hopen
  have hawake : (w.next .look).awake = w.scheduler.look.isDue w.now := by
    rw [Bool.eq_iff_iff, awake_eq_true_iff, hlook, hnow]
    constructor
    · rintro ⟨hrunning, due, hwaits, hle⟩
      unfold Scheduler.isDue Deadline.isDue
      rw [hrunning, hwaits]
      exact decide_eq_true ((le_nextTick due).trans hle)
    · intro hdue
      obtain ⟨hrunning, due, hle, hwaits⟩ := awaits_of_isDue hdue
      exact ⟨hrunning, due, hwaits, nextTick_le hwhole hle⟩
  unfold Scheduler.settle at h
  dsimp only at h
  unfold settling
  rw [hawake]
  split at h
  · next hdue =>
    obtain ⟨⟨outcome, x''⟩, hfire, hs⟩ := Option.map_eq_some_iff.1 h
    obtain ⟨hs', rfl⟩ := Prod.mk.inj hs
    refine ⟨outcome, ?_, by rw [if_pos hdue, hfire]⟩
    rw [if_pos hdue]
    change ((w.next .look).next (.attempt outcome)).scheduler = s'
    rw [next_attempt_of_awake (hawake.trans hdue), hlook, hnow, ← hs']
    exact (Synchronizer.leave_of_open
      ((w.scheduler.look.after_frame w.now outcome).1.trans hclosed)).symm
  · next hdue =>
    obtain ⟨hs', hx⟩ := Prod.mk.inj (Option.some.inj h)
    refine ⟨.fired, ?_, by rw [if_neg hdue, hx]⟩
    rw [if_neg hdue, ← hs', Synchronizer.leave_of_open hclosed]
    exact hlook

/-! ## What the task does and when -/

/-- What holds of the notes of every run. -/
structure Disciplined (w : Watch) : Prop where
  /-- An attempt is made only while the value seen last is an instant, and not before it. -/
  called_for : ∀ newer now outcome older, w.notes = newer ++ .tried now outcome :: older →
    ∃ due ≤ now, seen older = some due
  /-- After an attempt that fired or was idle, and after the sight of no deadline, there is no attempt
  until another value is seen. -/
  quiet : ∀ newer now outcome between n older,
    w.notes = newer ++ .tried now outcome :: between ++ n :: older → n.awaits = none →
    ∃ m ∈ between, m.isSight = true
  /-- Between two sights at most one attempt is not contended. -/
  once : ∀ newer same older, w.notes = newer ++ same ++ older →
    (∀ n ∈ same, n.isSight = false) → same.countP Note.settles ≤ 1
  /-- Nothing is done after a stop. -/
  ended : ∀ newer now older, w.notes = newer ++ .tried now .stopped :: older → newer = []
  /-- A task that has looked has seen what was posted last. -/
  heard : w.scheduler.fresh = false → seen w.notes = w.scheduler.posted

/-- What holds of the notes of every punctual run. -/
structure Timely (w : Watch) : Prop where
  /-- Attempts are made exactly when the task wakes up. -/
  woken : ∀ newer now outcome n older, w.notes = newer ++ .tried now outcome :: n :: older →
    n.alarm? = some now
  /-- The attempt after a contended one is made a retry later, on a clock of whole milliseconds. -/
  retried : ∀ newer now outcome start older,
    w.notes = newer ++ .tried now outcome :: .tried start .contended :: older →
    now = nextTick start + retryInterval
  /-- When the time has come at which the task wakes up after a note, the next note is an attempt at
  that time, unless another value was seen before. -/
  answered : ∀ newer n older due, w.notes = newer ++ n :: older → n.alarm? = some due →
    due < w.now ∨ due = w.now ∧ w.AtRest →
    ∃ newer' m, newer = newer' ++ [m] ∧
      ((∃ now ≤ due, ∃ d, m = .saw now d) ∨ ∃ outcome, m = .tried due outcome)

theorem Sound.disciplined (h : w.Sound) : w.Disciplined where
  called_for newer now outcome older hsplit := by
    have hchain := h.chain
    have holdest := h.oldest
    rw [hsplit] at hchain holdest
    cases older with
    | nil =>
      rw [List.getLast?_concat] at holdest
      exact absurd (Option.some.inj holdest) nofun
    | cons n older =>
      obtain ⟨due, hle, hawaits⟩ := of_split h.chain hsplit
      rw [List.getLast?_append_cons, List.getLast?_cons_cons] at holdest
      obtain ⟨d, hd, hseen⟩ := exists_seen_le hchain.right_of_append.tail holdest rfl hawaits
      exact ⟨d, hd.trans hle, hseen⟩
  quiet newer now outcome between n older hsplit hn := exists_sight h.chain hsplit hn
  once newer same older hsplit hsight := by
    have hchain := h.chain
    rw [hsplit] at hchain
    exact countP_settles_le hchain.left_of_append.right_of_append hsight
  ended newer now older hsplit := by
    cases newer using List.reverseRecOn with
    | nil => rfl
    | append_singleton newer m =>
      rw [List.append_assoc, List.singleton_append] at hsplit
      have hfollows := of_split h.chain hsplit
      cases m with
      | saw _ _ => exact absurd rfl (hfollows now)
      | tried _ _ =>
        obtain ⟨due, -, hawaits⟩ := hfollows
        exact absurd hawaits nofun
  heard := h.heard

theorem OnTime.timely (h : w.OnTime) (hsound : w.Sound) : w.Timely where
  woken newer now outcome n older hsplit := of_split h.chain hsplit
  retried newer now outcome start older hsplit := by
    have halarm : some (max start (nextTick (start + retryInterval))) = some now :=
      of_split h.chain hsplit
    have hlate : start ≤ nextTick (start + retryInterval) :=
      (Nat.le_add_right start retryInterval).trans (le_nextTick _)
    rw [max_eq_right hlate, nextTick_add_retryInterval] at halarm
    exact (Option.some.inj halarm).symm
  answered newer n older due hsplit halarm hcome := by
    cases newer using List.reverseRecOn with
    | nil =>
      -- The note is the latest one, and the task cannot have been at rest beyond its alarm.
      obtain ⟨rfl, -⟩ := List.cons.inj hsplit
      obtain ⟨at', hawaits, hdue⟩ := Option.map_eq_some_iff.1 halarm
      have hrunning : w.scheduler.running = true := by
        rw [hsound.running_iff]
        intro now heq
        rw [heq] at hawaits
        exact absurd hawaits nofun
      have hahead := h.ahead hrunning due halarm
      rcases hcome with hlt | ⟨rfl, hrest⟩
      · exact absurd hahead (Nat.not_le_of_lt hlt)
      · have hlt := (hrest hrunning).2 at' ((hsound.waits hrunning).trans hawaits)
        have hle : nextTick at' ≤ w.now := hdue ▸ le_max_right _ _
        exact absurd hle (Nat.not_le_of_lt hlt)
    | append_singleton newer m =>
      rw [List.append_assoc, List.singleton_append] at hsplit
      have hfollows := of_split h.chain hsplit
      refine ⟨newer, m, rfl, ?_⟩
      cases m with
      | saw now d => exact Or.inl ⟨now, hfollows due halarm, d, rfl⟩
      | tried now outcome =>
        rw [Option.some.inj (halarm.symm.trans hfollows)]
        exact Or.inr ⟨outcome, rfl⟩

/-- Whatever is posted and whenever, however long the task takes to look and to try, and whatever
the outcomes of its attempts: an attempt is called for by the value that the task saw last, and not
before its instant, at most one attempt for a value is not contended, the sight of no deadline
silences the task, and nothing follows upon a stop. Where time passes only while the task is at rest,
it tries again a retry after a contended attempt, and makes an attempt whenever what it waits for has
come. It comes to rest at once, and that is how the task is run at whole milliseconds. -/
theorem run_disciplined (xs : List Event) :
    (run xs).Disciplined ∧
    (Punctual xs → (run xs).Timely ∧
      (∀ outcome, Punctual (xs ++ (run xs).settling outcome) ∧
        (run (xs ++ (run xs).settling outcome)).AtRest ∧
        (run (xs ++ (run xs).settling outcome)).now = (run xs).now) ∧
      (nanosPerMilli ∣ (run xs).now →
        ∀ (σ : Type) (fire : Instant → σ → Option (FireOutcome × σ)) (x x' : σ) (s' : Scheduler),
          (run xs).scheduler.settle fire (run xs).now x = some (s', x') →
          ∃ outcome, (run (xs ++ (run xs).settling outcome)).scheduler = s' ∧
            if ((run xs).next .look).awake then fire (run xs).now x = some (outcome, x')
            else x' = x)) := by
  have hsound := sound_run xs
  refine ⟨hsound.disciplined, fun h => ⟨(onTime_run h).timely hsound, fun outcome => ?_, ?_⟩⟩
  · obtain ⟨hrest, hnow⟩ := (run xs).settling_leads outcome
    rw [run_append]
    exact ⟨h.settling outcome, hrest, hnow⟩
  · intro hwhole σ fire x x' s' hsettle
    obtain ⟨outcome, hs, hanswer⟩ := settle_eq hsound.post_open hwhole hsettle
    refine ⟨outcome, ?_, hanswer⟩
    rw [run_append]
    exact hs

/-- A deadline between two whole milliseconds, an attempt for it that is contended, and the next one,
which closes the round. -/
def contested : List Event :=
  [.notify (some 500000), .look, .pass 1000000, .attempt .contended, .pass 10000000, .attempt .fired]

theorem punctual_contested : Punctual contested := by
  have hstart : Punctual [] := fun ys x zs h => absurd h (by simp)
  have hposted : Punctual [.notify (some 500000)] := hstart.concat trivial
  have hseen : Punctual [.notify (some 500000), .look] := hposted.concat trivial
  have hcome : Punctual [.notify (some 500000), .look, .pass 1000000] := by
    refine hseen.concat fun _ => ⟨rfl, fun due hdue => ?_⟩
    rw [← Option.some.inj hdue]
    decide
  have htried : Punctual [.notify (some 500000), .look, .pass 1000000, .attempt .contended] := by
    refine hcome.concat fun due hdue => ?_
    rw [← Option.some.inj hdue]
    decide
  have hagain : Punctual [.notify (some 500000), .look, .pass 1000000, .attempt .contended,
      .pass 10000000] := by
    refine htried.concat fun _ => ⟨rfl, fun due hdue => ?_⟩
    rw [← Option.some.inj hdue]
    decide
  refine hagain.concat fun due hdue => ?_
  rw [← Option.some.inj hdue]
  decide

theorem run_disciplined_contested :
    Punctual contested ∧ (run contested).notes = [.tried 11000000 .fired, .tried 1000000 .contended,
      .saw 0 (some 500000), .saw 0 none] ∧ 11000000 = nextTick 1000000 + retryInterval := by
  refine ⟨punctual_contested, rfl, ?_⟩
  exact ((run_disciplined contested).2 punctual_contested).1.retried [] _ _ _ _ rfl

end Watch

end LidarSync
