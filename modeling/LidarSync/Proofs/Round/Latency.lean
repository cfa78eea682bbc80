import LidarSync.Proofs.Round.Delay
import LidarSync.Proofs.Round.Interplay
import LidarSync.Proofs.Round.Pace

/-!
# How long a round stays open

Clouds cannot put off the end of a round for ever. `Prompt` allows the interleavings in which a
deadline that has come is fired before another cloud is taken in; `Punctual` allows those in which
time passes only when there is nothing to do, and no further than to the first whole millisecond at
which the task wakes up. `Interplay.round_bounded` says what follows for the armings of every round
and for the instant at which it is closed; a shutdown may happen at any time.
-/

namespace LidarSync

/-! ## Ticks -/

theorem le_nextTick (t : Instant) : t ≤ nextTick t := by
  have hround : ∀ n : Nat, n ≤ (n + 1000000 - 1) / 1000000 * 1000000 := by
    intro n
    omega
  exact hround t

/-- A whole millisecond before an instant is a millisecond before its tick. -/
theorem add_le_nextTick {t t' : Instant} (hwhole : nanosPerMilli ∣ t) (h : t < t') :
    t + nanosPerMilli ≤ nextTick t' := by
  obtain ⟨k, rfl⟩ := hwhole
  have hround : ∀ k n : Nat, 1000000 * k < n →
      1000000 * k + 1000000 ≤ (n + 1000000 - 1) / 1000000 * 1000000 := by
    intro k n hlt
    omega
  exact hround k t' h

theorem nextTick_mono {t t' : Instant} (h : t ≤ t') : nextTick t ≤ nextTick t' := by
  unfold nextTick
  apply Nat.mul_le_mul_right
  apply Nat.div_le_div_right
  exact Nat.sub_le_sub_right (Nat.add_le_add_right h _) 1

namespace Interplay

variable {w : Interplay} {s : SyncSettings} {span : Nat}

/-! ## Which interleavings are meant -/

/-- Clouds are taken in only when no deadline of the round has come, also none that a shutdown
dropped. -/
def Prompt (w : Interplay) : Event → Prop
  | .arrive _ _ => (dueIn w.turns).isDue w.now = false
  | _ => True

/-- Time passes only when nobody is at the lock and the task waits for what it was posted, and no
further than to the tick at which the task wakes up; an attempt finds the lock free. -/
def Punctual (w : Interplay) : Event → Prop
  | .pass nanos => w.guard = .free ∧ w.task = .waiting ∧ w.scheduler.fresh = false ∧
      ∀ due, w.scheduler.waitsFor = some due → w.now + nanos ≤ nextTick due
  | .attempt => w.guard = .free
  | _ => True

/-- No cloud arrives, and the interleaving stays punctual. -/
def Unaided (w : Interplay) (x : Event) : Prop :=
  w.Punctual x ∧ ∀ t cloud, x ≠ .arrive t cloud

/-- Every event of an interleaving is allowed where it happens. -/
def Along (allowed : Interplay → Event → Prop) : Interplay → List Event → Prop
  | _, [] => True
  | w, x :: xs => allowed w x ∧ Along allowed (w.next x) xs

theorem along_append {allowed : Interplay → Event → Prop} {xs ys : List Event} :
    Along allowed w (xs ++ ys) ↔ Along allowed w xs ∧ Along allowed (xs.foldl next w) ys := by
  induction xs generalizing w with
  | nil => simp [Along]
  | cons x xs ih => exact (and_congr_right fun _ => ih).trans and_assoc.symm

/-! ## Prompt interleavings -/

/-- The invariant of prompt interleavings. -/
structure Steady (s : SyncSettings) (span : Nat) (w : Interplay) : Prop where
  topics : w.engine.collector.topics = s.inputTopics
  offsets : w.engine.collector.offsets = s.offsetOf
  timeout : w.engine.collector.timeout = s.timeout
  waiting : w.engine.collector.Open
  paced : Paced span w.engine.collector w.turns
  bounded : ∀ older, older <:+ w.turns → Bounded s span older
  completed : ∀ newer older t r, w.turns = newer ++ (t, .closed r) :: older →
    r.trigger = .complete → ∀ due, dueIn older = some due → t < due

theorem offsetOf_eq_nil (h : s.offsets = []) : s.offsetOf = [] := by
  unfold SyncSettings.offsetOf
  rw [h, List.zip_nil_right]
  rfl

namespace Steady

theorem ofSettings (hs : s.Valid) (g : FrameGraph Float) : Steady s span (ofSettings s g) where
  topics := rfl
  offsets := rfl
  timeout := rfl
  waiting := Engine.open_ofSettings hs g
  paced := .ofArmings _ rfl
  bounded older hsuffix := by
    rw [List.eq_nil_of_suffix_nil hsuffix]
    exact (Paced.ofArmings _ rfl).bounded (Engine.open_ofSettings hs g) rfl offsetOf_eq_nil
  completed newer older t r h := absurd h (by simp [Interplay.ofSettings])

theorem turn {w' : Interplay} {now start : Instant} {turn : Turn} (h : Steady s span w)
    (hturns : w'.turns = (now, turn) :: w.turns)
    (hmove : Move start w.engine.collector w.engine.deadline turn w'.engine.collector
      w'.engine.deadline)
    (hpaced : Paced span w'.engine.collector w'.turns)
    (hcompleted : ∀ r, turn = .closed r → r.trigger = .complete →
      ∀ due, dueIn w.turns = some due → now < due) : Steady s span w' := by
  obtain ⟨htopics, hoffsets, htimeout⟩ := hmove.frame
  have hwaiting := h.waiting.move hmove
  refine ⟨htopics.trans h.topics, hoffsets.trans h.offsets, htimeout.trans h.timeout, hwaiting,
    hpaced, fun older hsuffix => ?_, ?_⟩
  · rw [hturns] at hsuffix
    rcases List.suffix_cons_iff.1 hsuffix with heq | hsuffix
    · rw [heq, ← hturns]
      refine hpaced.bounded hwaiting (htopics.trans h.topics) fun hnone => ?_
      rw [hoffsets, h.offsets]
      exact offsetOf_eq_nil hnone
    · exact h.bounded older hsuffix
  · rw [hturns]
    exact forall_closed_cons h.completed hcompleted

theorem arrive (h : Steady s span w) (hs : s.Valid) (hspan : nanoseconds? s.timeout = some span)
    (t : Topic) (cloud : Cloud) (hprompt : (dueIn w.turns).isDue w.now = false) :
    Steady s span (w.arrive t cloud) := by
  have hmove := w.engine.cloud_move w.now t cloud
  have hearly : ∀ due, dueIn w.turns = some due → w.now < due := by
    intro due hdue
    rw [hdue] at hprompt
    exact Nat.lt_of_not_le (of_decide_eq_false hprompt)
  refine h.turn rfl hmove ?_ fun r _ _ => hearly
  refine h.paced.move h.waiting.toSound hmove (fun _ _ _ _ ha => ?_) fun due hdue =>
    (hearly due hdue).le
  exact Collector.delay_le hs hspan h.timeout h.offsets ha

theorem fire (h : Steady s span w) (hguard : w.guard = .free) (start : Instant) :
    Steady s span (w.attempt start) := by
  obtain ⟨hengine, hturns⟩ := attempt_of_free hguard start
  have hmove := w.engine.fire_move start
  rw [← hengine] at hmove
  refine h.turn hturns hmove ?_ fun r hr htrigger => ?_
  · rw [hturns, hengine]
    cases hdue : w.engine.deadline.isDue start with
    | false =>
      rw [Engine.fire_of_not_due hdue]
      exact ⟨h.paced.count, h.paced.plain, h.paced.pace⟩
    | true =>
      obtain ⟨_, r, hturn, _, _⟩ := Engine.fire_of_due hdue
      rw [hturn]
      exact .ofArmings _ rfl
  · cases hdue : w.engine.deadline.isDue start with
    | false =>
      rw [Engine.fire_of_not_due hdue] at hr
      exact absurd hr nofun
    | true =>
      obtain ⟨_, r', hturn, hcloses, _⟩ := Engine.fire_of_due hdue
      rw [hturn] at hr
      rw [← Turn.closed.inj hr, hcloses.trigger_eq] at htrigger
      exact absurd htrigger nofun

theorem next (h : Steady s span w) (hs : s.Valid) (hspan : nanoseconds? s.timeout = some span)
    {x : Event} (hx : w.Prompt x) : Steady s span (w.next x) := by
  obtain ⟨hturns, hbeside⟩ | ⟨t, cloud, rfl, heq⟩ | ⟨start, _, _, hguard, heq⟩ :=
    w.next_cases x
  · have hcollector : (w.next x).engine.collector = w.engine.collector := by
      rcases hbeside with hengine | ⟨y, -, hengine⟩ | hengine
      · rw [hengine]
      · rw [hengine, (w.engine.aside_frame y).1]
      · rw [hengine]
    refine ⟨?_, ?_, ?_, ?_, ?_, ?_, ?_⟩
    · rw [hcollector]; exact h.topics
    · rw [hcollector]; exact h.offsets
    · rw [hcollector]; exact h.timeout
    · rw [hcollector]; exact h.waiting
    · rw [hcollector, hturns]; exact h.paced
    · rw [hturns]; exact h.bounded
    · rw [hturns]; exact h.completed
  · rw [heq]
    exact h.arrive hs hspan t cloud hx
  · rw [heq]
    exact h.fire hguard start

end Steady

theorem steady_run (hs : s.Valid) (hspan : nanoseconds? s.timeout = some span)
    (g : FrameGraph Float) {xs : List Event} (h : Along Prompt (ofSettings s g) xs) :
    Steady s span (run s g xs) := by
  induction xs using List.reverseRecOn with
  | nil => exact Steady.ofSettings hs g
  | append_singleton xs x ih =>
    obtain ⟨hxs, hx, _⟩ := along_append.1 h
    rw [run_concat]
    exact (ih hxs).next hs hspan hx

/-! ## Punctual interleavings -/

theorem ne_contended {outcome : FireOutcome} (h : outcome = .fired ∨ outcome = .idle) :
    outcome ≠ .contended := by
  rcases h with rfl | rfl
  · nofun
  · nofun

/-- The invariant of punctual interleavings. -/
structure OnTime (w : Interplay) : Prop where
  uncontended : w.retries = []
  answers : ∀ start outcome, w.task = .answered start outcome →
    outcome = .fired ∨ outcome = .idle
  running : w.task ≠ .gone → w.scheduler.running = true
  open_le : ∀ due, dueIn w.turns = some due → w.now ≤ nextTick due
  closed_le : ∀ newer older t r, w.turns = newer ++ (t, .closed r) :: older →
    ∀ due, dueIn older = some due → t ≤ nextTick due

/-- At rest the task waits for the deadline of the round. -/
theorem Sound.waitsFor_eq (hsound : w.Sound) (hquiet : w.retries = []) (hguard : w.guard = .free)
    (htask : w.task = .waiting) (hfresh : w.scheduler.fresh = false) {due : Instant}
    (hdue : w.engine.deadline = some due) : w.scheduler.waitsFor = some due := by
  have hsettled : w.Settled := settled_of_eq hguard nofun
  rcases hsound.awaited hsettled due hdue with hnew | hawaits
  · rw [hfresh] at hnew
    exact absurd hnew Bool.false_ne_true
  · unfold Awaits at hawaits
    rw [htask] at hawaits
    rcases hawaits with hwaits | ⟨a, ha, _⟩
    · exact hwaits
    · rw [hquiet] at ha
      exact absurd ha List.not_mem_nil

namespace OnTime

theorem ofSettings (s : SyncSettings) (g : FrameGraph Float) : OnTime (ofSettings s g) where
  uncontended := rfl
  answers start outcome h := absurd h nofun
  running _ := rfl
  open_le due h := absurd h nofun
  closed_le newer older t r h := absurd h (by simp [Interplay.ofSettings])

/-- Steps that leave the clock and the round alone. -/
theorem keep {w' : Interplay} (h : w.OnTime) (hnow : w'.now = w.now) (hturns : w'.turns = w.turns)
    (hretries : w'.retries = []) (hrunning : w'.task ≠ .gone → w'.scheduler.running = true)
    (hanswers : ∀ start outcome, w'.task = .answered start outcome →
      outcome = .fired ∨ outcome = .idle) : w'.OnTime where
  uncontended := hretries
  answers := hanswers
  running := hrunning
  open_le := by
    rw [hnow, hturns]
    exact h.open_le
  closed_le := by
    rw [hturns]
    exact h.closed_le

-- A punctual pause is bounded by what the task waits for, and that is the deadline of the round.
theorem pass (h : w.OnTime) (hsound : w.Sound) {nanos : Nat} (hx : w.Punctual (.pass nanos)) :
    OnTime { w with now := w.now + nanos } := by
  obtain ⟨hguard, htask, hfresh, hle⟩ := hx
  refine ⟨h.uncontended, h.answers, h.running, ?_, h.closed_le⟩
  intro due hdue
  have halive : w.task ≠ .gone := by
    rw [htask]
    nofun
  have hdeadline : w.engine.deadline = some due :=
    (hsound.deadline_eq_of_ne_gone halive).trans hdue
  apply hle due
  exact hsound.waitsFor_eq h.uncontended hguard htask hfresh hdeadline

theorem turn {w' : Interplay} {turn : Turn} (h : w.OnTime) (hnow : w'.now = w.now)
    (hturns : w'.turns = (w.now, turn) :: w.turns)
    (hlate : ∀ due, turn = .armed due → w.now ≤ due) (hretries : w'.retries = [])
    (hrunning : w'.task ≠ .gone → w'.scheduler.running = true)
    (hanswers : ∀ start outcome, w'.task = .answered start outcome →
      outcome = .fired ∨ outcome = .idle) : w'.OnTime := by
  refine ⟨hretries, hanswers, hrunning, fun due hdue => ?_, ?_⟩
  · rw [hnow]
    rw [hturns] at hdue
    cases turn with
    | kept => exact h.open_le due hdue
    | armed due' =>
      obtain rfl : due' = due := Option.some.inj hdue
      exact (hlate due' rfl).trans (le_nextTick due')
    | closed r => exact absurd hdue nofun
  · rw [hturns]
    exact forall_closed_cons h.closed_le fun _ _ => h.open_le

theorem arrive (h : w.OnTime) (t : Topic) (cloud : Cloud) : (w.arrive t cloud).OnTime := by
  have hmove := w.engine.cloud_move w.now t cloud
  refine h.turn rfl rfl ?_ h.uncontended h.running h.answers
  intro due hturn
  rw [hturn] at hmove
  exact hmove.le_of_armed

theorem attempt (h : w.OnTime) (hguard : w.guard = .free) {start : Instant}
    (htask : w.task = .woken start) : (w.attempt start).OnTime := by
  obtain ⟨houtcome, hturn⟩ := w.engine.fire_kinds start
  unfold Interplay.attempt
  rw [hguard]
  refine h.turn rfl rfl ?_ h.uncontended ?_ ?_
  · intro due harmed
    exact absurd harmed (hturn due)
  · intro _
    exact h.running (by rw [htask]; nofun)
  · intro start' outcome hanswer
    dsimp only at hanswer
    split at hanswer
    · obtain ⟨-, rfl⟩ := TaskPhase.answered.inj hanswer
      exact houtcome
    · exact absurd hanswer nofun

theorem conclude (h : w.OnTime) {start : Instant} {outcome : FireOutcome}
    (htask : w.task = .answered start outcome) : (w.conclude start outcome).OnTime := by
  have houtcome := h.answers start outcome htask
  have hrunning := h.running (by rw [htask]; nofun)
  refine h.keep rfl rfl ?_ (fun _ => ?_) nofun
  · unfold Interplay.conclude
    rw [if_neg (ne_contended houtcome)]
    exact h.uncontended
  · rcases houtcome with rfl | rfl
    · exact hrunning
    · exact hrunning

theorem shutdown (h : w.OnTime) : w.shutdown.OnTime :=
  h.keep rfl rfl h.uncontended (fun hgone => absurd rfl hgone) nofun

theorem next (h : w.OnTime) (hsound : w.Sound) {x : Event} (hx : w.Punctual x) :
    (w.next x).OnTime := by
  unfold Interplay.next
  split
  · exact h.pass hsound hx
  · exact h.keep rfl rfl h.uncontended h.running h.answers
  · exact h.arrive _ _
  · next d _ =>
    refine h.keep rfl rfl h.uncontended ?_ h.answers
    rw [Scheduler.notify_of_open hsound.post_open]
    exact h.running
  · exact h.keep rfl rfl h.uncontended h.running h.answers
  · exact h.keep rfl rfl h.uncontended h.running h.answers
  · exact h.keep rfl rfl h.uncontended h.running h.answers
  · refine h.keep rfl rfl h.uncontended ?_ h.answers
    unfold Scheduler.look
    split
    · exact h.running
    · exact h.running
  · next htask =>
    have hrunning := h.running (by rw [htask]; nofun)
    split
    · exact h.keep rfl rfl h.uncontended (fun _ => hrunning) nofun
    · exact h
  · next htask => exact h.attempt hx htask
  · next htask => exact h.conclude htask
  · exact h.shutdown
  · exact h

end OnTime

theorem onTime_run (s : SyncSettings) (g : FrameGraph Float) {xs : List Event}
    (h : Along Punctual (ofSettings s g) xs) : (run s g xs).OnTime := by
  induction xs using List.reverseRecOn with
  | nil => exact OnTime.ofSettings s g
  | append_singleton xs x ih =>
    obtain ⟨hxs, hx, _⟩ := along_append.1 h
    rw [run_concat]
    exact (ih hxs).next (sound_run s g xs) hx

/-! ## The task left alone -/

section Unaided

variable {due start : Instant} {outcome : FireOutcome} {d : Deadline}

theorem next_pass (w : Interplay) (nanos : Nat) :
    w.next (.pass nanos) = { w with now := w.now + nanos } := rfl

theorem next_post (hguard : w.guard = .posting d) :
    w.next .post = { w with scheduler := w.scheduler.notify d, guard := .done } := by
  unfold next
  rw [hguard]

theorem next_release (hguard : w.guard = .held ∨ w.guard = .done) :
    w.next .release = { w with guard := .free } := by
  unfold next
  rcases hguard with hguard | hguard
  · rw [hguard]
  · rw [hguard]

theorem next_look (htask : w.task = .waiting) :
    w.next .look = { w with scheduler := w.scheduler.look } := by
  unfold next
  rw [htask]

theorem next_wake (htask : w.task = .waiting) (hdue : w.scheduler.isDue w.now = true) :
    w.next .wake = { w with task := .woken w.now } := by
  unfold next
  rw [htask]
  exact if_pos hdue

theorem next_attempt (htask : w.task = .woken start) : w.next .attempt = w.attempt start := by
  unfold next
  rw [htask]

theorem next_conclude (htask : w.task = .answered start outcome) :
    w.next .conclude = w.conclude start outcome := by
  unfold next
  rw [htask]

/-- The round is armed, and the task is there to close it. -/
structure Ripening (w : Interplay) (due : Instant) : Prop where
  sound : w.Sound
  onTime : w.OnTime
  armed : w.engine.deadline = some due
  alive : w.task ≠ .gone

/-- Without any further cloud the round can be closed as timed out at its tick or before. -/
def Ends (w : Interplay) (due : Instant) : Prop :=
  ∃ ys, Along Unaided w ys ∧ ∃ t ≤ nextTick due, ∃ r newer,
    (ys.foldl next w).turns = (t, .closed r) :: (newer ++ w.turns) ∧ r.trigger = .timeout

namespace Ripening

-- From the last event backwards: each lemma below leads to a state of the one before it.

/-- One event on the way to the end of the round. -/
theorem ends_of_next {w' : Interplay} {x : Event} (h : w.Ripening due) (newer : Turns)
    (hnext : w.next x = w') (hx : w.Unaided x) (hturns : w'.turns = newer ++ w.turns)
    (harmed : w'.engine.deadline = some due) (halive : w'.task ≠ .gone)
    (hends : w'.Ripening due → w'.Ends due) : w.Ends due := by
  subst hnext
  have hripening : (w.next x).Ripening due :=
    ⟨h.sound.next x, h.onTime.next h.sound hx.1, harmed, halive⟩
  obtain ⟨ys, hys, t, ht, r, newer', heq, hr⟩ := hends hripening
  refine ⟨x :: ys, ⟨hx, hys⟩, t, ht, r, newer' ++ newer, ?_, hr⟩
  rw [List.append_assoc, ← hturns]
  exact heq

/-- An attempt of a task that woke up for the deadline or later. -/
theorem ends_of_due (h : w.Ripening due) (hguard : w.guard = .free) (htask : w.task = .woken start)
    (hdue : due ≤ start) : w.Ends due := by
  have hisDue : w.engine.deadline.isDue start = true := by
    rw [h.armed]
    exact decide_eq_true hdue
  obtain ⟨_, r, hturn, hcloses, _⟩ := Engine.fire_of_due hisDue
  have hopen := h.onTime.open_le due (h.sound.dueIn_eq h.armed)
  refine ⟨[.attempt], ⟨⟨hguard, nofun⟩, trivial⟩, w.now, hopen, r, [], ?_, hcloses.trigger_eq⟩
  change (w.next .attempt).turns = (w.now, .closed r) :: w.turns
  rw [next_attempt htask, (attempt_of_free hguard start).2, hturn]

theorem ends_of_come (h : w.Ripening due) (hguard : w.guard = .free) (htask : w.task = .waiting)
    (hwaits : w.scheduler.waitsFor = some due) (hcome : due ≤ w.now) : w.Ends due := by
  have hisDue : w.scheduler.isDue w.now = true := by
    unfold Scheduler.isDue
    rw [h.onTime.running h.alive, hwaits]
    exact decide_eq_true hcome
  refine h.ends_of_next [] (next_wake htask hisDue) ⟨trivial, nofun⟩ rfl h.armed nofun ?_
  intro hnext
  exact hnext.ends_of_due hguard rfl hcome

/-- At rest the task sleeps until the tick. -/
theorem ends_of_rest (h : w.Ripening due) (hguard : w.guard = .free) (htask : w.task = .waiting)
    (hfresh : w.scheduler.fresh = false) : w.Ends due := by
  have hwaits := h.sound.waitsFor_eq h.onTime.uncontended hguard htask hfresh h.armed
  have hopen : w.now ≤ nextTick due := h.onTime.open_le due (h.sound.dueIn_eq h.armed)
  have htick : w.now + (nextTick due - w.now) = nextTick due := Nat.add_sub_of_le hopen
  have hx : w.Unaided (.pass (nextTick due - w.now)) := by
    refine ⟨⟨hguard, htask, hfresh, fun due' hdue' => ?_⟩, nofun⟩
    obtain rfl : due = due' := Option.some.inj (hwaits.symm.trans hdue')
    exact htick.le
  have hpass : w.next (.pass (nextTick due - w.now)) = { w with now := nextTick due } := by
    rw [next_pass, htick]
  refine h.ends_of_next [] hpass hx rfl h.armed h.alive ?_
  intro hnext
  exact hnext.ends_of_come hguard htask hwaits (le_nextTick due)

theorem ends_of_waiting (h : w.Ripening due) (hguard : w.guard = .free)
    (htask : w.task = .waiting) : w.Ends due := by
  cases hfresh : w.scheduler.fresh with
  | false => exact h.ends_of_rest hguard htask hfresh
  | true =>
    refine h.ends_of_next [] (next_look htask) ⟨trivial, nofun⟩ rfl h.armed h.alive ?_
    intro hnext
    apply hnext.ends_of_rest hguard htask
    change w.scheduler.look.fresh = false
    unfold Scheduler.look
    rw [h.onTime.running h.alive, hfresh]
    rfl

theorem ends_of_answered (h : w.Ripening due) (hguard : w.guard = .free)
    (htask : w.task = .answered start outcome) : w.Ends due := by
  refine h.ends_of_next [] (next_conclude htask) ⟨trivial, nofun⟩ rfl h.armed nofun ?_
  intro hnext
  exact hnext.ends_of_waiting hguard rfl

theorem ends_of_early (h : w.Ripening due) (hguard : w.guard = .free)
    (htask : w.task = .woken start) (hearly : ¬ due ≤ start) : w.Ends due := by
  have hisDue : w.engine.deadline.isDue start = false := by
    rw [h.armed]
    exact decide_eq_false hearly
  have hattempt : w.next .attempt =
      { w with turns := (w.now, .kept) :: w.turns, task := .answered start .idle } := by
    rw [next_attempt htask]
    unfold Interplay.attempt
    rw [hguard, Engine.fire_of_not_due hisDue]
    rfl
  refine h.ends_of_next [(w.now, .kept)] hattempt ⟨hguard, nofun⟩ rfl h.armed nofun ?_
  intro hnext
  exact hnext.ends_of_answered hguard rfl

theorem ends_of_free (h : w.Ripening due) (hguard : w.guard = .free) : w.Ends due := by
  cases htask : w.task with
  | waiting => exact h.ends_of_waiting hguard htask
  | answered start outcome => exact h.ends_of_answered hguard htask
  | gone => exact absurd htask h.alive
  | woken start =>
    by_cases hdue : due ≤ start
    · exact h.ends_of_due hguard htask hdue
    · exact h.ends_of_early hguard htask hdue

theorem ends_of_release (h : w.Ripening due) (hguard : w.guard = .held ∨ w.guard = .done) :
    w.Ends due := by
  refine h.ends_of_next [] (next_release hguard) ⟨trivial, nofun⟩ rfl h.armed h.alive ?_
  intro hnext
  exact hnext.ends_of_free rfl

/-- Whoever is at the lock, and whatever the task is about: left alone, they close the round. -/
theorem ends (h : w.Ripening due) : w.Ends due := by
  cases hguard : w.guard with
  | free => exact h.ends_of_free hguard
  | held => exact h.ends_of_release (Or.inl hguard)
  | done => exact h.ends_of_release (Or.inr hguard)
  | posting d =>
    refine h.ends_of_next [] (next_post hguard) ⟨trivial, nofun⟩ rfl h.armed h.alive ?_
    intro hnext
    exact hnext.ends_of_release (Or.inr rfl)

end Ripening

end Unaided

/-! ## The bounds -/

/-- Clouds cannot put off the end of a round for ever, when they are taken in only while no deadline
has come. A round of `n` topics is armed `n` times at most, and once at most where no topic is
usually late; after `k` armings its deadline is no more than `k` timeouts after the first of them. A
round that is completed is closed before `n` timeouts have passed since then. In a punctual
interleaving every round that was armed is closed at the first tick after them or before: it does
not stay open any longer, and the task, left alone, closes it. -/
theorem round_bounded {s : SyncSettings} (hvalid : s.validate = .ok ()) (g : FrameGraph Float)
    {xs : List Event} (hprompt : Along Prompt (ofSettings s g) xs) :
    ∃ span, nanoseconds? s.timeout = some span ∧
      (∀ due, (run s g xs).engine.deadline = some due → dueIn (run s g xs).turns = some due) ∧
      (∀ older, older <:+ (run s g xs).turns → Bounded s span older) ∧
      (∀ newer older t r first, (run s g xs).turns = newer ++ (t, .closed r) :: older →
        firstArming older = some first → r.trigger = .complete →
          t < first + s.inputTopics.length * span) ∧
      (Along Punctual (ofSettings s g) xs →
        (∀ newer older t r first, (run s g xs).turns = newer ++ (t, .closed r) :: older →
          firstArming older = some first →
            t ≤ nextTick (first + s.inputTopics.length * span)) ∧
        ∀ first, firstArming (run s g xs).turns = some first →
          (run s g xs).now ≤ nextTick (first + s.inputTopics.length * span) ∧
          ((run s g xs).task ≠ .gone →
            ∃ due ≤ first + s.inputTopics.length * span, (run s g xs).Ends due)) := by
  have hs := s.validate_eq_ok_iff.1 hvalid
  obtain ⟨span, hspan⟩ := hs.nanoseconds_timeout
  have hsound := sound_run s g xs
  have hsteady := steady_run hs hspan g hprompt
  have hclosed : ∀ newer older t r, (run s g xs).turns = newer ++ (t, .closed r) :: older →
      Bounded s span older := by
    intro newer older t r hsplit
    apply hsteady.bounded
    rw [hsplit]
    exact (List.suffix_cons _ older).trans (List.suffix_append newer _)
  refine ⟨span, hspan, fun _ hdue => hsound.dueIn_eq hdue, hsteady.bounded, ?_,
    fun hpunctual => ⟨?_, ?_⟩⟩
  · intro newer older t r first hsplit hfirst htrigger
    obtain ⟨due, hle, hdue⟩ := (hclosed newer older t r hsplit).due_le hfirst
    exact (hsteady.completed newer older t r hsplit htrigger due hdue).trans_le hle
  · intro newer older t r first hsplit hfirst
    obtain ⟨due, hle, hdue⟩ := (hclosed newer older t r hsplit).due_le hfirst
    have hclose := (onTime_run s g hpunctual).closed_le newer older t r hsplit due hdue
    exact hclose.trans (nextTick_mono hle)
  · intro first hfirst
    have honTime := onTime_run s g hpunctual
    obtain ⟨due, hle, hdue⟩ := (hsteady.bounded _ List.suffix_rfl).due_le hfirst
    refine ⟨(honTime.open_le due hdue).trans (nextTick_mono hle), fun halive => ?_⟩
    have harmed : (run s g xs).engine.deadline = some due :=
      (hsound.deadline_eq_of_ne_gone halive).trans hdue
    exact ⟨due, hle, Ripening.ends ⟨hsound, honTime, harmed, halive⟩⟩

/-- Two lidars that are usually late. -/
def lopsided : SyncSettings := { SyncSettings.pair with offsets := [0.02, 0.01] }

/-- Two clouds of one topic, each of which asks for a deadline, until the tick of the second. -/
def drawnOut : List Event :=
  [.pass 500000, .acquire, .arrive "/left" (.ofPoints 0 "left" []), .post, .release, .look,
    .pass 1000000, .acquire, .arrive "/left" (.ofPoints 1 "left" []), .post, .release, .look,
    .pass 100500000]

theorem prompt_drawnOut : Along Prompt (ofSettings lopsided .empty) drawnOut :=
  ⟨trivial, trivial, by rfl, trivial, trivial, trivial, trivial, trivial, by rfl, trivial, trivial,
    trivial, trivial, trivial⟩

theorem punctual_drawnOut : Along Punctual (ofSettings lopsided .empty) drawnOut := by
  refine ⟨⟨rfl, rfl, rfl, nofun⟩, trivial, trivial, trivial, trivial, trivial,
    ⟨by rfl, by rfl, by rfl, ?_⟩, trivial, trivial, trivial, trivial, trivial,
    ⟨by rfl, by rfl, by rfl, ?_⟩, trivial⟩
  · intro due hdue
    have hwaits : some 80500000 = some due := hdue
    rw [← Option.some.inj hwaits]
    decide
  · intro due hdue
    have hwaits : some 101500000 = some due := hdue
    rw [← Option.some.inj hwaits]
    decide

/-- The second arming moved the deadline, and the round is still closed in time. -/
theorem round_bounded_drawnOut :
    (lopsided.validate = .ok () ∧ Along Prompt (ofSettings lopsided .empty) drawnOut ∧
      Along Punctual (ofSettings lopsided .empty) drawnOut) ∧
    (armings (run lopsided .empty drawnOut).turns).length = 2 ∧
    ∃ span, nanoseconds? lopsided.timeout = some span ∧
      Bounded lopsided span (run lopsided .empty drawnOut).turns ∧
      (run lopsided .empty drawnOut).now ≤ nextTick (500000 + 2 * span) ∧
      ∃ due ≤ 500000 + 2 * span, (run lopsided .empty drawnOut).Ends due := by
  have hvalid : lopsided.validate = .ok () := by rfl
  have halive : (run lopsided .empty drawnOut).task = .waiting := by rfl
  obtain ⟨span, hspan, _, hbounded, _, hpunctual⟩ :=
    round_bounded hvalid .empty prompt_drawnOut
  obtain ⟨hopen, hends⟩ := (hpunctual punctual_drawnOut).2 500000 (by rfl)
  refine ⟨⟨hvalid, prompt_drawnOut, punctual_drawnOut⟩, by rfl, span, hspan,
    hbounded _ List.suffix_rfl, hopen, hends ?_⟩
  rw [halive]
  nofun

end Interplay

end LidarSync
