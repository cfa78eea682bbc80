import Mathlib.Data.List.Basic
import LidarSync.Proofs.Round.Sending
import LidarSync.Round.Deadline
import LidarSync.Sink.Feed

/-!
# What becomes of the rounds offered to a sink

`Lane.next` is one step at the feed of a sink: the sender offers a round or closes the queue, or the
worker goes on, which it may do as late as it likes and with any outcome of a write. An event whose
turn it is not changes nothing.

The accounts are the invariant (`Lane.Sound`): whatever was offered is written, failed, dropped, still
waiting or in the hands of the worker. They are kept by a case for each thing that a step can do
(`Lane.Step`). All that a lane is follows from what happened to it and when (`Lane.Opened`).
-/

namespace LidarSync

/-- A sink that has nothing to do. -/
def Sink.idle : Sink Unit where
  write _ _ := .finished true ()
  close x := x

/-- What the worker of a sink does next. -/
inductive Lane.Task where
  /-- It notes how many rounds are waiting. A note may be late, and may be one of the sender. -/
  | note (waiting : Nat)
  | take
  | finish (ok : Bool)
  | stop
deriving DecidableEq

/-- What can happen next at the feed of a sink. -/
inductive Lane.Event where
  | offer (s : SyncedSet)
  | close
  | task (t : Lane.Task)

/-- The feed of a sink, and what has happened to it so far. -/
structure Lane where
  feed : Feed
  offered : List SyncedSet := []
  /-- The rounds that were passed to the sink and finished, and whether they were written. -/
  finished : List (SyncedSet × Bool) := []
  schedule : List (Instant × Lane.Event) := []

namespace Lane

def ofFeed (f : Feed) : Lane := { feed := f }

/-- The rounds that were passed to the sink. -/
def passed (l : Lane) : List SyncedSet := l.finished.map Prod.fst ++ l.feed.current.toList

def written (l : Lane) : List SyncedSet := (l.finished.filter (·.2)).map Prod.fst

/-- A step of the worker, if it is its turn. -/
def work? (l : Lane) (t : Task) : Option Lane :=
  match t, l.feed.current with
  | .note n, _ =>
    if l.feed.stopped then none
    else some { l with feed := { l.feed with tally := l.feed.tally.note n } }
  | .take, none => l.feed.next.map fun (_, f) => { l with feed := f }
  | .finish ok, some s =>
    some { l with feed := l.feed.finish ok, finished := l.finished ++ [(s, ok)] }
  | .stop, none =>
    if l.feed.closing && !l.feed.stopped && l.feed.backlog == 0 then
      some { l with feed := (l.feed.rest Sink.idle ()).1 }
    else none
  | _, _ => none

/-- A step at the feed, if its turn has come. -/
def step? (l : Lane) : Event → Option Lane
  | .offer s =>
    if l.feed.closing then none
    else some { l with feed := (l.feed.offer s).2, offered := l.offered ++ [s] }
  | .close => if l.feed.closing then none else some { l with feed := l.feed.close }
  | .task t => l.work? t

def next (l : Lane) (now : Instant) (x : Event) : Lane :=
  match l.step? x with
  | some l' => { l' with schedule := l.schedule ++ [(now, x)] }
  | none => l

/-- Where a schedule leads. -/
def after (l : Lane) (xs : List (Instant × Event)) : Lane := xs.foldl (fun l (now, x) => l.next now x) l

theorem after_concat (l : Lane) (xs : List (Instant × Event)) (now : Instant) (x : Event) :
    l.after (xs ++ [(now, x)]) = (l.after xs).next now x := by
  unfold after
  rw [List.foldl_append]
  rfl

/-! ## The accounts -/

/-- The accounts of a sink under a name and with a capacity. -/
structure Sound (name : String) (capacity : Nat) (l : Lane) : Prop where
  name_eq : l.feed.name = name
  capacity_eq : l.feed.queue.capacity = max capacity 1
  receiver : l.feed.queue.closed = false
  fits : l.feed.queue.waiting.length ≤ max capacity 1
  written_eq : l.feed.tally.written = l.finished.countP (·.2)
  failed_eq : l.feed.tally.failed = l.finished.countP (!·.2)
  balance : l.offered.length = l.finished.length + l.feed.current.toList.length
    + l.feed.queue.waiting.length + l.feed.tally.dropped
  order : (l.passed ++ l.feed.queue.waiting).Sublist l.offered
  rested : l.feed.stopped = true → l.feed.closing = true ∧ l.feed.queue.waiting = [] ∧
    l.feed.current = none ∧ l.feed.tally.waiting? = some 0

/-- All that a step can do. -/
inductive Step (l : Lane) : Event → Lane → Prop where
  | queued (s : SyncedSet) (sending : l.feed.closing = false)
      (room : l.feed.queue.waiting.length < l.feed.queue.capacity) :
      Step l (.offer s) { l with
        feed := { l.feed with
          queue := { l.feed.queue with waiting := l.feed.queue.waiting ++ [s] }
          tally := l.feed.tally.note (l.feed.queue.waiting ++ [s]).length }
        offered := l.offered ++ [s] }
  | dropped (s : SyncedSet) (sending : l.feed.closing = false)
      (full : l.feed.queue.capacity ≤ l.feed.queue.waiting.length) :
      Step l (.offer s) { l with
        feed := { l.feed with tally := l.feed.tally.drop }
        offered := l.offered ++ [s] }
  | closed (sending : l.feed.closing = false) : Step l .close { l with feed := l.feed.close }
  | noted (n : Nat) (running : l.feed.stopped = false) :
      Step l (.task (.note n)) { l with feed := { l.feed with tally := l.feed.tally.note n } }
  | taken (s : SyncedSet) (rest : List SyncedSet) (free : l.feed.current = none)
      (oldest : l.feed.queue.waiting = s :: rest) :
      Step l (.task .take) { l with
        feed := { l.feed with
          queue := { l.feed.queue with waiting := rest }
          current := some s
          tally := l.feed.tally.note rest.length } }
  | finished (s : SyncedSet) (ok : Bool) (current : l.feed.current = some s) :
      Step l (.task (.finish ok)) { l with
        feed := { l.feed with current := none, tally := l.feed.tally.wrote ok }
        finished := l.finished ++ [(s, ok)] }
  | stopped (closing : l.feed.closing = true) (running : l.feed.stopped = false)
      (free : l.feed.current = none) (empty : l.feed.queue.waiting = []) :
      Step l (.task .stop) { l with
        feed := { l.feed with stopped := true, tally := l.feed.tally.note 0 } }

variable {l l' : Lane} {name : String} {capacity : Nat} {x : Event} {now : Instant}

theorem step_offer (hopen : l.feed.queue.closed = false) {s : SyncedSet}
    (h : l.step? (.offer s) = some l') : Step l (.offer s) l' := by
  unfold step? at h
  cases hclosing : l.feed.closing with
  | true =>
    rw [hclosing] at h
    exact absurd h nofun
  | false =>
    rw [hclosing, if_neg Bool.false_ne_true] at h
    obtain rfl := Option.some.inj h
    unfold Feed.offer
    rcases Outbox.send_of_open hopen s with ⟨hroom, hsend⟩ | ⟨hfull, hsend⟩
    · rw [hsend]
      exact .queued s hclosing hroom
    · rw [hsend]
      exact .dropped s hclosing hfull

theorem step_work {t : Task} (h : l.work? t = some l') : Step l (.task t) l' := by
  unfold work? at h
  split at h
  · split at h
    · exact absurd h nofun
    · next _ n hstopped =>
      obtain rfl := Option.some.inj h
      exact .noted n (eq_false_of_ne_true hstopped)
  · next hfree =>
    obtain ⟨⟨s, f⟩, hnext, rfl⟩ := Option.map_eq_some_iff.1 h
    unfold Feed.next at hnext
    rw [hfree] at hnext
    unfold Outbox.receive at hnext
    cases hwaiting : l.feed.queue.waiting with
    | nil =>
      rw [hwaiting] at hnext
      exact absurd hnext nofun
    | cons s' rest =>
      rw [hwaiting] at hnext
      obtain ⟨rfl, rfl⟩ := Prod.mk.inj (Option.some.inj hnext)
      exact .taken _ rest hfree hwaiting
  · next ok s hcurrent =>
    obtain rfl := Option.some.inj h
    exact .finished s ok hcurrent
  · next hfree =>
    split at h
    · next hrest =>
      obtain rfl := Option.some.inj h
      have hrest' := hrest
      simp only [Bool.and_eq_true, Bool.not_eq_true', beq_iff_eq] at hrest
      obtain ⟨⟨hclosing, hrunning⟩, hbacklog⟩ := hrest
      have hempty : l.feed.queue.waiting = [] := by
        unfold Feed.backlog at hbacklog
        exact List.length_eq_zero_iff.1 (by omega)
      unfold Feed.rest
      rw [if_pos hrest']
      exact .stopped hclosing hrunning hfree hempty
    · exact absurd h nofun
  · exact absurd h nofun

theorem step_cases (hopen : l.feed.queue.closed = false) (h : l.step? x = some l') : Step l x l' := by
  cases x with
  | offer s => exact step_offer hopen h
  | close =>
    dsimp only [step?] at h
    split at h
    · exact absurd h nofun
    · next hclosing =>
      obtain rfl := Option.some.inj h
      exact .closed (eq_false_of_ne_true hclosing)
  | task t => exact step_work h

namespace Sound

theorem ofCapacity (name : String) (capacity : Nat) :
    Sound name capacity (ofFeed (.ofCapacity name capacity)) where
  name_eq := rfl
  capacity_eq := rfl
  receiver := rfl
  fits := Nat.zero_le _
  written_eq := rfl
  failed_eq := rfl
  balance := rfl
  order := List.Sublist.refl []
  rested := nofun

theorem running_of_sending (h : Sound name capacity l) (hsending : l.feed.closing = false) :
    l.feed.stopped = false := by
  by_contra hstopped
  have hclosing := (h.rested (eq_true_of_ne_false hstopped)).1
  exact absurd (hsending.symm.trans hclosing) nofun

/-- Every step keeps the accounts. -/
theorem step (h : Sound name capacity l) (hstep : Step l x l') : Sound name capacity l' := by
  have hcapacity := h.capacity_eq
  have hfits := h.fits
  have hbalance := h.balance
  have horder := h.order
  cases hstep with
  | queued s sending room =>
    have hrunning := h.running_of_sending sending
    exact { h with
      fits := by
        dsimp only
        rw [List.length_append, List.length_singleton]
        omega
      balance := by
        change (l.offered ++ [s]).length = l.finished.length + l.feed.current.toList.length
          + (l.feed.queue.waiting ++ [s]).length + l.feed.tally.dropped
        rw [List.length_append, List.length_append, List.length_singleton]
        omega
      order := by
        change (l.passed ++ (l.feed.queue.waiting ++ [s])).Sublist (l.offered ++ [s])
        rw [← List.append_assoc]
        exact horder.append (List.Sublist.refl [s])
      rested := fun hstopped => absurd (hrunning.symm.trans hstopped) nofun }
  | dropped s sending full =>
    have hrunning := h.running_of_sending sending
    exact { h with
      balance := by
        change (l.offered ++ [s]).length = l.finished.length + l.feed.current.toList.length
          + l.feed.queue.waiting.length + (l.feed.tally.dropped + 1)
        rw [List.length_append, List.length_singleton]
        omega
      order := horder.trans (List.sublist_append_left l.offered [s])
      rested := fun hstopped => absurd (hrunning.symm.trans hstopped) nofun }
  | closed sending => exact { h with rested := fun hstopped => ⟨rfl, (h.rested hstopped).2⟩ }
  | noted n running =>
    exact { h with rested := fun hstopped => absurd (running.symm.trans hstopped) nofun }
  | taken s rest free oldest =>
    unfold passed at horder
    rw [free, oldest, Option.toList_none, List.append_nil] at horder
    rw [free, oldest, Option.toList_none, List.length_nil, List.length_cons] at hbalance
    rw [oldest, List.length_cons] at hfits
    exact { h with
      fits := Nat.le_of_succ_le hfits
      balance := by
        change l.offered.length = l.finished.length + 1 + rest.length + l.feed.tally.dropped
        omega
      order := by
        change (l.finished.map Prod.fst ++ [s] ++ rest).Sublist l.offered
        rw [List.append_assoc]
        exact horder
      rested := fun hstopped => by
        have hempty := (h.rested hstopped).2.1
        rw [oldest] at hempty
        exact absurd hempty nofun }
  | finished s ok current =>
    unfold passed at horder
    rw [current] at horder hbalance
    exact { h with
      written_eq := by
        rw [List.countP_append, ← h.written_eq]
        cases ok <;> rfl
      failed_eq := by
        rw [List.countP_append, ← h.failed_eq]
        cases ok <;> rfl
      balance := by
        change l.offered.length = (l.finished ++ [(s, ok)]).length + 0
          + l.feed.queue.waiting.length + (l.feed.tally.wrote ok).dropped
        change l.offered.length = l.finished.length + 1 + _ + _ at hbalance
        have hdropped : (l.feed.tally.wrote ok).dropped = l.feed.tally.dropped := by
          cases ok <;> rfl
        rw [List.length_append, List.length_singleton, hdropped]
        omega
      order := by
        change ((l.finished ++ [(s, ok)]).map Prod.fst ++ [] ++ l.feed.queue.waiting).Sublist l.offered
        rw [List.map_append, List.append_nil]
        exact horder
      rested := fun hstopped => by
        have hnone := (h.rested hstopped).2.2.1
        exact absurd (current.symm.trans hnone) nofun }
  | stopped closing running free empty =>
    exact { h with rested := fun _ => ⟨closing, empty, free, rfl⟩ }

theorem finished_length (h : Sound name capacity l) :
    l.finished.length = l.feed.tally.written + l.feed.tally.failed := by
  rw [h.written_eq, h.failed_eq, List.length_eq_countP_add_countP (·.2)]
  congr 1
  exact List.countP_congr fun p _ => by simp

/-- Where the rounds are that have been offered. -/
theorem offered_length (h : Sound name capacity l) :
    l.offered.length = l.feed.tally.written + l.feed.tally.failed + l.feed.tally.dropped
      + l.feed.queue.waiting.length + l.feed.current.toList.length := by
  have hbalance := h.balance
  have hfinished := h.finished_length
  omega

theorem passed_sublist (h : Sound name capacity l) : l.passed.Sublist l.offered :=
  (List.sublist_append_left _ _).trans h.order

theorem written_length (h : Sound name capacity l) : l.written.length = l.feed.tally.written := by
  unfold written
  rw [List.length_map, h.written_eq, List.countP_eq_length_filter]

end Sound

theorem written_sublist (l : Lane) : l.written.Sublist l.passed :=
  (List.filter_sublist.map Prod.fst).trans (List.sublist_append_left _ _)

/-! ## What an event does -/

theorem next_of_step {l' : Lane} (h : l.step? x = some l') (now : Instant) :
    l.next now x = { l' with schedule := l.schedule ++ [(now, x)] } := by
  unfold next
  rw [h]

theorem next_of_none (h : l.step? x = none) (now : Instant) : l.next now x = l := by
  unfold next
  rw [h]

/-- An event changes nothing, or it is a step that the schedule names. -/
theorem next_cases (hopen : l.feed.queue.closed = false) (now : Instant) (x : Event) :
    l.next now x = l ∨
      ∃ l', Step l x l' ∧ l.next now x = { l' with schedule := l.schedule ++ [(now, x)] } := by
  cases hstep : l.step? x with
  | none => exact Or.inl (next_of_none hstep now)
  | some l' => exact Or.inr ⟨l', step_cases hopen hstep, next_of_step hstep now⟩

theorem Sound.next (h : Sound name capacity l) (now : Instant) (x : Event) :
    Sound name capacity (l.next now x) := by
  rcases next_cases h.receiver now x with heq | ⟨l', hstep, heq⟩
  · rw [heq]
    exact h
  · rw [heq]
    exact { h.step hstep with }

/-- Nothing else has happened to a sink than its schedule says. -/
def Opened (name : String) (capacity : Nat) (l : Lane) : Prop :=
  (ofFeed (.ofCapacity name capacity)).after l.schedule = l

theorem Opened.next (h : Opened name capacity l) (now : Instant) (x : Event) :
    Opened name capacity (l.next now x) := by
  cases hstep : l.step? x with
  | none =>
    rw [next_of_none hstep]
    exact h
  | some l' =>
    have heq := next_of_step hstep now
    unfold Opened at h ⊢
    rw [heq]
    dsimp only
    rw [after_concat, h, heq]

/-- What is offered while the queue is open finds room, or it is dropped because the queue is full. -/
theorem Sound.next_offer (h : Sound name capacity l) (hsending : l.feed.closing = false)
    (now : Instant) (s : SyncedSet) :
    (l.next now (.offer s)).offered = l.offered ++ [s] ∧
    (l.next now (.offer s)).feed.closing = false ∧
    (l.feed.queue.waiting.length < max capacity 1 ∧
      (l.next now (.offer s)).feed.queue.waiting = l.feed.queue.waiting ++ [s] ∧
      (l.next now (.offer s)).feed.tally.dropped = l.feed.tally.dropped ∨
    l.feed.queue.waiting.length = max capacity 1 ∧
      (l.next now (.offer s)).feed.queue.waiting = l.feed.queue.waiting ∧
      (l.next now (.offer s)).feed.tally.dropped = l.feed.tally.dropped + 1) := by
  have hcapacity := h.capacity_eq
  have hfits := h.fits
  have hturn : l.step? (.offer s)
      = some { l with feed := (l.feed.offer s).2, offered := l.offered ++ [s] } := by
    dsimp only [step?]
    rw [hsending, if_neg Bool.false_ne_true]
  have hstep := step_offer h.receiver hturn
  rw [next_of_step hturn]
  generalize { l with feed := (l.feed.offer s).2, offered := l.offered ++ [s] } = l' at hstep
  cases hstep with
  | queued _ _ room => exact ⟨rfl, hsending, Or.inl ⟨by omega, rfl, rfl⟩⟩
  | dropped _ _ full => exact ⟨rfl, hsending, Or.inr ⟨by omega, rfl, rfl⟩⟩

theorem next_close (hsending : l.feed.closing = false) (now : Instant) :
    (l.next now .close).offered = l.offered ∧ (l.next now .close).feed = l.feed.close := by
  have hturn : l.step? .close = some { l with feed := l.feed.close } := by
    dsimp only [step?]
    rw [hsending, if_neg Bool.false_ne_true]
  rw [next_of_step hturn]
  exact ⟨rfl, rfl⟩

/-- The worker neither offers nor closes, and drops nothing. -/
theorem next_task (hopen : l.feed.queue.closed = false) (now : Instant) (t : Task) :
    (l.next now (.task t)).offered = l.offered ∧
    (l.next now (.task t)).feed.closing = l.feed.closing ∧
    (l.next now (.task t)).feed.tally.dropped = l.feed.tally.dropped := by
  rcases next_cases hopen now (.task t) with heq | ⟨l', hstep, heq⟩
  · rw [heq]
    exact ⟨rfl, rfl, rfl⟩
  · rw [heq]
    cases hstep with
    | noted n _ => exact ⟨rfl, rfl, rfl⟩
    | taken s rest _ _ => exact ⟨rfl, rfl, rfl⟩
    | finished s ok _ => exact ⟨rfl, rfl, by cases ok <;> rfl⟩
    | stopped _ _ _ _ => exact ⟨rfl, rfl, rfl⟩

/-- A worker that has stopped does nothing more. -/
theorem Sound.next_of_stopped (h : Sound name capacity l) (hstopped : l.feed.stopped = true)
    (now : Instant) (t : Task) : l.next now (.task t) = l := by
  obtain ⟨-, hempty, hfree, -⟩ := h.rested hstopped
  rcases next_cases h.receiver now (.task t) with heq | ⟨l', hstep, -⟩
  · exact heq
  · cases hstep with
    | noted n running => exact absurd (running.symm.trans hstopped) nofun
    | taken s rest _ oldest => exact absurd (hempty.symm.trans oldest) nofun
    | finished s ok current => exact absurd (hfree.symm.trans current) nofun
    | stopped _ running _ _ => exact absurd (running.symm.trans hstopped) nofun

/-! ## How much is left to do -/

/-- How many steps the worker still has to take when nothing is offered any more. -/
def left (l : Lane) : Nat :=
  2 * l.feed.queue.waiting.length + l.feed.current.toList.length + if l.feed.stopped then 0 else 1

/-- Every step of the worker but a note leaves less to do. -/
theorem Step.left_lt {t : Task} (h : Step l (.task t) l') (ht : ∀ n, t ≠ .note n) :
    l'.left < l.left := by
  unfold left
  cases h with
  | noted n _ => exact absurd rfl (ht n)
  | taken s rest free oldest =>
    rw [free, oldest, List.length_cons]
    change 2 * rest.length + 1 + (if l.feed.stopped then 0 else 1)
      < 2 * (rest.length + 1) + 0 + if l.feed.stopped then 0 else 1
    omega
  | finished s ok current =>
    rw [current]
    change 2 * l.feed.queue.waiting.length + 0 + (if l.feed.stopped then 0 else 1)
      < 2 * l.feed.queue.waiting.length + 1 + if l.feed.stopped then 0 else 1
    omega
  | stopped closing running free empty =>
    rw [running]
    exact Nat.lt_succ_self _

theorem left_next (hopen : l.feed.queue.closed = false) (now : Instant) {t : Task}
    (ht : ∀ n, t ≠ .note n) :
    l.next now (.task t) = l ∨ (l.next now (.task t)).left < l.left := by
  rcases next_cases hopen now (.task t) with heq | ⟨l', hstep, heq⟩
  · exact Or.inl heq
  · rw [heq]
    exact Or.inr (hstep.left_lt ht)

/-- A worker whose queue is closed has a turn until it has stopped. -/
theorem exists_work (hclosing : l.feed.closing = true) (hrunning : l.feed.stopped = false) :
    ∃ t l', (∀ n, t ≠ .note n) ∧ l.work? t = some l' := by
  cases hcurrent : l.feed.current with
  | some s =>
    refine ⟨.finish true, ?_⟩
    unfold work?
    rw [hcurrent]
    exact ⟨_, nofun, rfl⟩
  | none =>
    cases hwaiting : l.feed.queue.waiting with
    | cons s rest =>
      refine ⟨.take, ?_⟩
      unfold work? Feed.next Outbox.receive
      rw [hcurrent, hwaiting]
      exact ⟨_, nofun, rfl⟩
    | nil =>
      refine ⟨.stop, ?_⟩
      unfold work? Feed.backlog
      rw [hcurrent, hwaiting, hclosing, hrunning]
      exact ⟨_, nofun, rfl⟩

theorem exists_left_next_lt (hopen : l.feed.queue.closed = false) (hclosing : l.feed.closing = true)
    (hrunning : l.feed.stopped = false) (now : Instant) :
    ∃ t, (∀ n, t ≠ .note n) ∧ (l.next now (.task t)).left < l.left := by
  obtain ⟨t, l', ht, hwork⟩ := exists_work hclosing hrunning
  have hturn : l.step? (.task t) = some l' := hwork
  refine ⟨t, ht, ?_⟩
  rw [next_of_step hturn]
  exact (step_cases hopen hturn).left_lt ht

end Lane

end LidarSync
