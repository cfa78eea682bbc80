import LidarSync.Proofs.Sink.Lane
import LidarSync.Sink.Channel

/-!
# What the receiver of a channel sink gets

`Relay` is a channel sink behind its queue together with whoever receives from its channel. Rounds are
offered and messages received at any pace; the worker takes a round off the queue and puts its messages
on the channel one by one, and it waits in the middle of a round while the channel is full. An event
whose turn it is not changes nothing.

The queue and its worker are a lane (`Lane`), which keeps the accounts. What is new here is where
the messages are (`Relay.Sound`): those on the way and those that have arrived are the messages of the rounds
that were finished and of what has been put of the round in hand, as long as there is a receiver.
-/

namespace LidarSync

/-! ## Messages -/

/-- What a receiver is to get of a round: a message for each cloud that is there, on the output topic, in
the order of the topics. -/
def SyncedSet.announced (s : SyncedSet) : List PublishedCloud :=
  s.clouds.filterMap fun (t, c) => c.map fun c => ⟨t ++ "_synchronized", s.roundId, c⟩

/-- What a receiver is to get of rounds. -/
def streamOf (sets : List SyncedSet) : List PublishedCloud := sets.flatMap SyncedSet.announced

theorem SyncedSet.messages_eq_announced (s : SyncedSet) : s.messages = s.announced := by
  unfold messages published present announced
  rw [List.map_filterMap, List.map_filterMap]
  congr 1
  funext p
  obtain ⟨t, c⟩ := p
  cases c <;> rfl

theorem SyncedSet.isEmpty_announced (s : SyncedSet) : s.announced.isEmpty = s.isEmpty := by
  rw [← messages_eq_announced]
  unfold messages published isEmpty
  rw [List.isEmpty_map, List.isEmpty_map]

theorem streamOf_append (sets more : List SyncedSet) :
    streamOf (sets ++ more) = streamOf sets ++ streamOf more := List.flatMap_append

theorem streamOf_singleton (s : SyncedSet) : streamOf [s] = s.announced := List.flatMap_singleton _ s

theorem drop_succ_of_drop {α : Type} {l rest : List α} {n : Nat} {a : α} (h : l.drop n = a :: rest) :
    l.drop (n + 1) = rest := by
  rw [← List.tail_drop, h, List.tail_cons]

/-! ## Rounds in the queue -/

namespace Lane

/-- The rounds that found room in the queue. -/
def queued (l : Lane) : List SyncedSet := l.passed ++ l.feed.queue.waiting

variable {l l' : Lane}

/-- An offer is answered by what becomes of the round. -/
theorem Step.answer {s : SyncedSet} (hopen : l.feed.queue.closed = false)
    (h : Step l (.offer s) l') :
    l'.offered = l.offered ++ [s] ∧ l'.finished = l.finished ∧ l'.feed.current = l.feed.current ∧
    ((l.feed.offer s).1 = .queued ∧ l'.queued = l.queued ++ [s] ∧
        l'.feed.tally.dropped = l.feed.tally.dropped ∨
      (l.feed.offer s).1 = .full ∧ l'.queued = l.queued ∧
        l'.feed.tally.dropped = l.feed.tally.dropped + 1) := by
  have hanswer : (l.feed.offer s).1 = (l.feed.queue.send s).1 := by
    unfold Feed.offer
    split <;> simp_all
  cases h with
  | queued _ sending room =>
    refine ⟨rfl, rfl, rfl, Or.inl ⟨?_, (List.append_assoc _ _ _).symm, rfl⟩⟩
    rw [hanswer]
    rcases Outbox.send_of_open hopen s with ⟨-, hsend⟩ | ⟨hfull, -⟩
    · rw [hsend]
    · exact absurd room (Nat.not_lt_of_le hfull)
  | dropped _ sending full =>
    refine ⟨rfl, rfl, rfl, Or.inr ⟨?_, rfl, rfl⟩⟩
    rw [hanswer]
    rcases Outbox.send_of_open hopen s with ⟨hroom, -⟩ | ⟨-, hsend⟩
    · exact absurd full (Nat.not_le_of_lt hroom)
    · rw [hsend]

/-- The worker passes rounds on, and none gets lost or is dropped on the way. -/
theorem Step.queued_task {t : Task} (h : Step l (.task t) l') :
    l'.queued = l.queued ∧ l'.offered = l.offered ∧
      l'.feed.tally.dropped = l.feed.tally.dropped := by
  unfold Lane.queued passed
  cases h with
  | noted n _ => exact ⟨rfl, rfl, rfl⟩
  | taken s rest free oldest =>
    rw [free, oldest]
    exact ⟨by simp, rfl, rfl⟩
  | finished s ok current =>
    rw [current]
    exact ⟨by simp, rfl, by cases ok <;> rfl⟩
  | stopped _ _ _ _ => exact ⟨rfl, rfl, rfl⟩

end Lane

/-! ## The transition system -/

/-- A channel sink behind its queue, and what has come of it so far. -/
structure Relay where
  lane : Lane
  channel : Channel
  /-- The rounds that were offered, with the answers. -/
  answers : List (SyncedSet × Sent) := []
  received : List PublishedCloud := []

/-- What can happen next. -/
inductive Relay.Event where
  | offer (s : SyncedSet)
  | close
  | work
  | receive
  /-- The receiver goes away. -/
  | leave

/-- Whether it is the worker or the receiver who goes on. -/
def Relay.Event.isOwn : Event → Bool
  | work => true
  | receive => true
  | _ => false

namespace Relay

/-- A new sink behind a new queue, with a name and the two capacities. -/
def ofCapacities (name : String) (queue channel : Nat) : Relay :=
  { lane := .ofFeed (.ofCapacity name queue), channel := .ofCapacity channel }

/-- The worker is done with the round in hand. -/
def finish? (w : Relay) (ok : Bool) : Option Relay :=
  (w.lane.work? (.finish ok)).map fun l =>
    { w with lane := l, channel := { w.channel with sent := 0 } }

/-- The next step of the worker, if it has one: it takes a round, puts a message, is done with the
round or stops. -/
def work? (w : Relay) : Option Relay :=
  match w.lane.feed.current with
  | none => ((w.lane.work? .take).or (w.lane.work? .stop)).map fun l => { w with lane := l }
  | some s =>
    match s.messages.drop w.channel.sent with
    | [] => w.finish? true
    | m :: _ =>
      match w.channel.out.send m with
      | (.queued, out) => some { w with channel := ⟨out, w.channel.sent + 1⟩ }
      | (.full, _) => none
      | (.closed, _) => w.finish? false

/-- A step, if its turn has come. -/
def step? (w : Relay) : Event → Option Relay
  | .offer s => (w.lane.step? (.offer s)).map fun l =>
    { w with lane := l, answers := w.answers ++ [(s, (w.lane.feed.offer s).1)] }
  | .close => (w.lane.step? .close).map fun l => { w with lane := l }
  | .work => w.work?
  | .receive =>
    match w.channel.receive with
    | (none, _) => none
    | (some m, c) => some { w with channel := c, received := w.received ++ [m] }
  | .leave => if w.channel.out.closed then none else some { w with channel := w.channel.dropReceiver }

def next (w : Relay) (x : Event) : Relay := (w.step? x).getD w

def after (w : Relay) (xs : List Event) : Relay := xs.foldl next w

theorem after_concat (w : Relay) (xs : List Event) (x : Event) :
    w.after (xs ++ [x]) = (w.after xs).next x := by
  unfold after
  rw [List.foldl_append]
  rfl

theorem after_append (w : Relay) (xs ys : List Event) :
    w.after (xs ++ ys) = (w.after xs).after ys := List.foldl_append

/-- The rounds that found room in the queue, in the order in which they were offered. -/
def accepted (w : Relay) : List SyncedSet := (w.answers.filter (·.2 = .queued)).map Prod.fst

/-- The messages that are not on the channel yet. -/
def pending (w : Relay) : List PublishedCloud :=
  (streamOf w.lane.feed.current.toList).drop w.channel.sent ++ streamOf w.lane.feed.queue.waiting

/-- Whether the worker has stopped and nothing is left to be received. -/
def Ended (w : Relay) : Prop := w.lane.feed.stopped = true ∧ w.channel.out.waiting = []

/-- All that a step can do. -/
inductive Step (w : Relay) : Event → Relay → Prop where
  | offered (s : SyncedSet) (l : Lane) (lane : Lane.Step w.lane (.offer s) l) :
      Step w (.offer s)
        { w with lane := l, answers := w.answers ++ [(s, (w.lane.feed.offer s).1)] }
  | closed (l : Lane) (lane : Lane.Step w.lane .close l) : Step w .close { w with lane := l }
  | taken (l : Lane) (lane : Lane.Step w.lane (.task .take) l) : Step w .work { w with lane := l }
  | stopped (l : Lane) (lane : Lane.Step w.lane (.task .stop) l) : Step w .work { w with lane := l }
  | put (s : SyncedSet) (m : PublishedCloud) (rest : List PublishedCloud)
      (current : w.lane.feed.current = some s) (left : s.announced.drop w.channel.sent = m :: rest)
      (listening : w.channel.out.closed = false) :
      Step w .work { w with channel :=
        ⟨{ w.channel.out with waiting := w.channel.out.waiting ++ [m] }, w.channel.sent + 1⟩ }
  | written (s : SyncedSet) (l : Lane) (current : w.lane.feed.current = some s)
      (none_left : s.announced.drop w.channel.sent = [])
      (lane : Lane.Step w.lane (.task (.finish true)) l) :
      Step w .work { w with lane := l, channel := { w.channel with sent := 0 } }
  | failed (s : SyncedSet) (l : Lane) (current : w.lane.feed.current = some s)
      (left : s.announced.drop w.channel.sent ≠ []) (alone : w.channel.out.closed = true)
      (lane : Lane.Step w.lane (.task (.finish false)) l) :
      Step w .work { w with lane := l, channel := { w.channel with sent := 0 } }
  | received (m : PublishedCloud) (rest : List PublishedCloud)
      (oldest : w.channel.out.waiting = m :: rest) :
      Step w .receive { w with
        channel := { w.channel with out := { w.channel.out with waiting := rest } }
        received := w.received ++ [m] }
  | left (listening : w.channel.out.closed = false) :
      Step w .leave { w with channel := w.channel.dropReceiver }

variable {w w' : Relay} {name : String} {queue channel : Nat} {x : Event}

theorem step_work (h : w.work? = some w') : Step w .work w' := by
  unfold work? at h
  split at h
  · obtain ⟨l, hl, rfl⟩ := Option.map_eq_some_iff.1 h
    rcases Option.or_eq_some_iff.1 hl with htake | ⟨-, hstop⟩
    · exact .taken l (Lane.step_work htake)
    · exact .stopped l (Lane.step_work hstop)
  · next s hcurrent =>
    rw [s.messages_eq_announced] at h
    split at h
    · next hnone =>
      obtain ⟨l, hl, rfl⟩ := Option.map_eq_some_iff.1 h
      exact .written s l hcurrent hnone (Lane.step_work hl)
    · next m rest hleft =>
      cases hclosed : w.channel.out.closed with
      | true =>
        have hsend : w.channel.out.send m = (.closed, w.channel.out) := if_pos hclosed
        rw [hsend] at h
        obtain ⟨l, hl, rfl⟩ := Option.map_eq_some_iff.1 h
        refine .failed s l hcurrent ?_ hclosed (Lane.step_work hl)
        rw [hleft]
        exact List.cons_ne_nil m rest
      | false =>
        rcases Outbox.send_of_open hclosed m with ⟨-, hsend⟩ | ⟨-, hsend⟩
        · rw [hsend] at h
          obtain rfl := Option.some.inj h
          exact .put s m rest hcurrent hleft hclosed
        · rw [hsend] at h
          exact absurd h nofun

theorem step_cases (hopen : w.lane.feed.queue.closed = false) (h : w.step? x = some w') :
    Step w x w' := by
  cases x with
  | offer s =>
    obtain ⟨l, hl, rfl⟩ := Option.map_eq_some_iff.1 h
    exact .offered s l (Lane.step_offer hopen hl)
  | close =>
    obtain ⟨l, hl, rfl⟩ := Option.map_eq_some_iff.1 h
    exact .closed l (Lane.step_cases hopen hl)
  | work => exact step_work h
  | receive =>
    dsimp only [step?, Channel.receive, Outbox.receive] at h
    cases hwaiting : w.channel.out.waiting with
    | nil =>
      rw [hwaiting] at h
      exact absurd h nofun
    | cons m rest =>
      rw [hwaiting] at h
      obtain rfl := Option.some.inj h
      exact .received m rest hwaiting
  | leave =>
    dsimp only [step?] at h
    split at h
    · exact absurd h nofun
    · next hlistening =>
      obtain rfl := Option.some.inj h
      exact .left (eq_false_of_ne_true hlistening)

/-! ## Where the messages are -/

/-- The messages that the worker has put on the channel when all goes well. -/
def put (w : Relay) : List PublishedCloud :=
  streamOf (w.lane.finished.map Prod.fst)
    ++ (streamOf w.lane.feed.current.toList).take w.channel.sent

/-- What holds of every run. -/
structure Sound (name : String) (queue : Nat) (w : Relay) : Prop where
  lane : w.lane.Sound name queue
  offered_eq : w.answers.map Prod.fst = w.lane.offered
  answered : ∀ a ∈ w.answers, a.2 ≠ .closed
  accepted_eq : w.accepted = w.lane.queued
  dropped_eq : w.lane.feed.tally.dropped = w.answers.countP (·.2 = .full)
  room : 0 < w.channel.out.capacity
  fresh : w.lane.feed.current = none → w.channel.sent = 0
  listening : w.channel.out.closed = false →
    w.received ++ w.channel.out.waiting = w.put ∧ ∀ p ∈ w.lane.finished, p.2 = true
  alone : w.channel.out.closed = true → w.channel.out.waiting = []
  arrived : w.received ++ w.channel.out.waiting <+: streamOf w.accepted

theorem put_prefix (w : Relay) : w.put <+: streamOf w.lane.queued := by
  unfold put Lane.queued Lane.passed
  rw [streamOf_append, streamOf_append, List.append_assoc]
  exact List.prefix_append_right_inj _ |>.2
    ((List.take_prefix _ _).trans (List.prefix_append _ _))

namespace Sound

theorem ofCapacities (name : String) (queue channel : Nat) :
    Sound name queue (ofCapacities name queue channel) where
  lane := Lane.Sound.ofCapacity name queue
  offered_eq := rfl
  answered := nofun
  accepted_eq := rfl
  dropped_eq := rfl
  room := Nat.lt_of_lt_of_le Nat.zero_lt_one (Nat.le_max_right _ _)
  fresh _ := rfl
  listening _ := ⟨rfl, nofun⟩
  alone := nofun
  arrived := List.nil_prefix

/-- An offer changes nothing at the channel. -/
theorem offered (h : Sound name queue w) {s : SyncedSet} {l : Lane}
    (hlane : Lane.Step w.lane (.offer s) l) :
    Sound name queue
      { w with lane := l, answers := w.answers ++ [(s, (w.lane.feed.offer s).1)] } := by
  obtain ⟨hoffered, hfinished, hcurrent, hanswer⟩ := hlane.answer h.lane.receiver
  have hput : ∀ answers, put { w with lane := l, answers } = w.put := by
    intro answers
    unfold put
    rw [hfinished, hcurrent]
  have haccepted : accepted { w with
        lane := l, answers := w.answers ++ [(s, (w.lane.feed.offer s).1)] } =
      w.accepted ++ if (w.lane.feed.offer s).1 = .queued then [s] else [] := by
    unfold accepted
    dsimp only
    rw [List.filter_append, List.map_append]
    by_cases hq : (w.lane.feed.offer s).1 = .queued <;> simp [hq]
  refine {
    lane := h.lane.step hlane
    offered_eq := by
      rw [List.map_append, h.offered_eq]
      exact hoffered.symm
    answered := ?_
    accepted_eq := ?_
    dropped_eq := ?_
    room := h.room
    fresh := fun hnone => h.fresh (hcurrent.symm.trans hnone)
    listening := fun hlistening => ?_
    alone := h.alone
    arrived := ?_ }
  · intro a ha
    rcases List.mem_append.1 ha with ha | ha
    · exact h.answered a ha
    · rw [List.mem_singleton.1 ha]
      rcases hanswer with ⟨hq, -⟩ | ⟨hq, -⟩
      · exact fun hclosed => absurd (hq.symm.trans hclosed) nofun
      · exact fun hclosed => absurd (hq.symm.trans hclosed) nofun
  · rw [haccepted, h.accepted_eq]
    rcases hanswer with ⟨hq, hqueued, -⟩ | ⟨hq, hqueued, -⟩
    · rw [if_pos hq]
      exact hqueued.symm
    · rw [if_neg (by rw [hq]; exact nofun), List.append_nil]
      exact hqueued.symm
  · rw [List.countP_append, ← h.dropped_eq]
    rcases hanswer with ⟨hq, -, hdropped⟩ | ⟨hq, -, hdropped⟩
    · simp [hq, hdropped]
    · simp [hq, hdropped]
  · rw [hput, hfinished]
    exact h.listening hlistening
  · rw [haccepted, streamOf_append]
    exact h.arrived.trans (List.prefix_append _ _)

/-- What the worker does with the queue while there is nothing to be put on the channel. -/
theorem moved (h : Sound name queue w) {l : Lane} {y : Lane.Event} (hlane : Lane.Step w.lane y l)
    (hoffered : l.offered = w.lane.offered) (hqueued : l.queued = w.lane.queued)
    (hdropped : l.feed.tally.dropped = w.lane.feed.tally.dropped)
    (hfinished : l.finished = w.lane.finished)
    (hfresh : l.feed.current = none → w.channel.sent = 0)
    (hsent : l.feed.current = w.lane.feed.current ∨ w.channel.sent = 0) :
    Sound name queue { w with lane := l } where
  lane := h.lane.step hlane
  offered_eq := h.offered_eq.trans hoffered.symm
  answered := h.answered
  accepted_eq := h.accepted_eq.trans hqueued.symm
  dropped_eq := hdropped.trans h.dropped_eq
  room := h.room
  fresh := hfresh
  listening hlistening := by
    have hput : put { w with lane := l } = w.put := by
      unfold put
      rw [hfinished]
      rcases hsent with hcurrent | hzero
      · rw [hcurrent]
      · rw [hzero, List.take_zero, List.take_zero]
    rw [hput, hfinished]
    exact h.listening hlistening
  alone := h.alone
  arrived := h.arrived

/-- The worker is done with the round in hand. -/
theorem finished (h : Sound name queue w) {s : SyncedSet} {ok : Bool} {l : Lane}
    (hlane : Lane.Step w.lane (.task (.finish ok)) l) (hcurrent : w.lane.feed.current = some s)
    (hok : w.channel.out.closed = false → ok = true ∧ s.announced.drop w.channel.sent = []) :
    Sound name queue { w with lane := l, channel := { w.channel with sent := 0 } } := by
  obtain ⟨hqueued, hoffered, hdropped⟩ := hlane.queued_task
  have hfinished : l.finished = w.lane.finished ++ [(s, ok)] := by
    cases hlane with
    | finished s' _ current =>
      rw [← Option.some.inj (hcurrent.symm.trans current)]
  exact {
    lane := h.lane.step hlane
    offered_eq := h.offered_eq.trans hoffered.symm
    answered := h.answered
    accepted_eq := h.accepted_eq.trans hqueued.symm
    dropped_eq := hdropped.trans h.dropped_eq
    room := h.room
    fresh := fun _ => rfl
    listening := fun hlistening => by
      obtain ⟨harrived, hwritten⟩ := h.listening hlistening
      obtain ⟨rfl, hall⟩ := hok hlistening
      have htake : s.announced.take w.channel.sent = s.announced :=
        List.take_of_length_le (List.drop_eq_nil_iff.1 hall)
      refine ⟨harrived.trans ?_, ?_⟩
      · unfold put
        rw [hfinished, hcurrent, Option.toList_some, streamOf_singleton, htake, List.map_append,
          streamOf_append, List.take_zero, List.append_nil]
        exact congrArg _ (streamOf_singleton s).symm
      · intro p hp
        rw [hfinished] at hp
        rcases List.mem_append.1 hp with hp | hp
        · exact hwritten p hp
        · rw [List.mem_singleton.1 hp]
    alone := h.alone
    arrived := h.arrived }

/-- A message goes on the channel. -/
theorem sent (h : Sound name queue w) {s : SyncedSet} {m : PublishedCloud}
    {rest : List PublishedCloud} (hcurrent : w.lane.feed.current = some s)
    (hleft : s.announced.drop w.channel.sent = m :: rest) (hlistening : w.channel.out.closed = false) :
    Sound name queue { w with channel :=
      ⟨{ w.channel.out with waiting := w.channel.out.waiting ++ [m] }, w.channel.sent + 1⟩ } := by
  obtain ⟨harrived, hwritten⟩ := h.listening hlistening
  have hhead : s.announced[w.channel.sent]? = some m := by
    rw [← List.head?_drop, hleft]
    rfl
  have hput : w.received ++ (w.channel.out.waiting ++ [m]) = put { w with channel :=
      ⟨{ w.channel.out with waiting := w.channel.out.waiting ++ [m] }, w.channel.sent + 1⟩ } := by
    rw [← List.append_assoc, harrived]
    unfold put
    dsimp only
    rw [hcurrent, Option.toList_some, streamOf_singleton, List.take_add_one, hhead,
      List.append_assoc]
    rfl
  refine { h with
    room := h.room
    fresh := fun hnone => absurd (hcurrent.symm.trans hnone) nofun
    listening := fun _ => ⟨hput, hwritten⟩
    alone := fun halone => absurd (hlistening.symm.trans halone) nofun
    arrived := ?_ }
  change w.received ++ (w.channel.out.waiting ++ [m]) <+: streamOf w.accepted
  rw [hput, h.accepted_eq]
  exact put_prefix _

theorem step (h : Sound name queue w) (hstep : Step w x w') : Sound name queue w' := by
  cases hstep with
  | offered s l lane => exact h.offered lane
  | closed l lane =>
    cases lane with
    | closed sending => exact h.moved (.closed sending) rfl rfl rfl rfl h.fresh (Or.inl rfl)
  | taken l lane =>
    obtain ⟨hqueued, hoffered, hdropped⟩ := lane.queued_task
    cases lane with
    | taken s rest free oldest =>
      have hzero := h.fresh free
      exact h.moved (.taken s rest free oldest) hoffered hqueued hdropped rfl (fun _ => hzero)
        (Or.inr hzero)
  | stopped l lane =>
    obtain ⟨hqueued, hoffered, hdropped⟩ := lane.queued_task
    cases lane with
    | stopped closing running free empty =>
      exact h.moved (.stopped closing running free empty) hoffered hqueued hdropped rfl h.fresh
        (Or.inl rfl)
  | put s m rest current left listening => exact h.sent current left listening
  | written s l current none_left lane => exact h.finished lane current fun _ => ⟨rfl, none_left⟩
  | failed s l current left alone lane =>
    exact h.finished lane current fun hlistening => absurd (hlistening.symm.trans alone) nofun
  | received m rest oldest =>
    have hsame : (w.received ++ [m]) ++ rest = w.received ++ w.channel.out.waiting := by
      rw [oldest, List.append_assoc]
      rfl
    exact { h with
      room := h.room
      fresh := h.fresh
      listening := fun hlistening => ⟨hsame.trans (h.listening hlistening).1,
        (h.listening hlistening).2⟩
      alone := fun halone => by
        have hempty := h.alone halone
        rw [oldest] at hempty
        exact absurd hempty nofun
      arrived := by
        change (w.received ++ [m]) ++ rest <+: streamOf w.accepted
        rw [hsame]
        exact h.arrived }
  | left listening =>
    exact { h with
      room := h.room
      fresh := h.fresh
      listening := nofun
      alone := fun _ => rfl
      arrived := by
        change w.received ++ [] <+: streamOf w.accepted
        rw [List.append_nil]
        exact (List.prefix_append _ _).trans h.arrived }

theorem next (h : Sound name queue w) (x : Event) : Sound name queue (w.next x) := by
  unfold Relay.next
  cases hstep : w.step? x with
  | none => exact h
  | some w' => exact h.step (step_cases h.lane.receiver hstep)

theorem after (h : Sound name queue w) (xs : List Event) : Sound name queue (w.after xs) := by
  induction xs using List.reverseRecOn with
  | nil => exact h
  | append_singleton xs x ih =>
    rw [after_concat]
    exact ih.next x

end Sound

/-! ## How much is left to do -/

/-- How many steps the worker and the receiver still have to take when nothing is offered any more: each
message has to be put and received. -/
def left (w : Relay) : Nat :=
  w.lane.left + 2 * w.pending.length + w.channel.out.waiting.length

/-- The worker and the receiver leave the offers alone. -/
theorem Step.own_frame (h : Step w x w') (hx : x.isOwn = true) :
    w'.lane.feed.closing = w.lane.feed.closing ∧
      w'.channel.out.closed = w.channel.out.closed ∧ w'.answers = w.answers := by
  cases h with
  | offered _ _ _ => exact absurd hx nofun
  | closed _ _ => exact absurd hx nofun
  | taken l lane => cases lane with | taken _ _ _ _ => exact ⟨rfl, rfl, rfl⟩
  | stopped l lane => cases lane with | stopped _ _ _ _ => exact ⟨rfl, rfl, rfl⟩
  | put _ _ _ _ _ _ => exact ⟨rfl, rfl, rfl⟩
  | written _ l _ _ lane => cases lane with | finished _ _ _ => exact ⟨rfl, rfl, rfl⟩
  | failed _ l _ _ _ lane => cases lane with | finished _ _ _ => exact ⟨rfl, rfl, rfl⟩
  | received _ _ _ => exact ⟨rfl, rfl, rfl⟩
  | left _ => exact absurd hx nofun

/-- A round that is done with leaves no message pending. -/
theorem pending_finish_le {l : Lane} {ok : Bool} (hlane : Lane.Step w.lane (.task (.finish ok)) l) :
    (pending { w with lane := l, channel := { w.channel with sent := 0 } }).length
      ≤ w.pending.length := by
  cases hlane with
  | finished s _ current =>
    unfold pending
    rw [List.length_append, List.length_append]
    exact Nat.add_le_add_right (Nat.zero_le _) _

theorem Sound.left_lt (h : Sound name queue w) (hx : x.isOwn = true) (hstep : Step w x w') :
    w'.left < w.left := by
  unfold left
  cases hstep with
  | offered _ _ _ => exact absurd hx nofun
  | closed _ _ => exact absurd hx nofun
  | left _ => exact absurd hx nofun
  | taken l lane =>
    have hless := lane.left_lt nofun
    have hpending : pending { w with lane := l } = w.pending := by
      cases lane with
      | taken s rest free oldest =>
        have hzero := h.fresh free
        unfold pending
        dsimp only
        rw [free, oldest, hzero, List.drop_zero, List.drop_zero]
        exact (streamOf_append [s] rest).symm
    rw [hpending]
    dsimp only
    omega
  | stopped l lane =>
    have hless := lane.left_lt nofun
    have hpending : pending { w with lane := l } = w.pending := by
      cases lane with | stopped _ _ _ _ => rfl
    rw [hpending]
    dsimp only
    omega
  | put s m rest current left listening =>
    have hbefore : (s.announced.drop w.channel.sent).length = rest.length + 1 := by
      rw [left, List.length_cons]
    have hafter : (s.announced.drop (w.channel.sent + 1)).length = rest.length := by
      rw [drop_succ_of_drop left]
    unfold pending
    dsimp only
    rw [current, Option.toList_some, streamOf_singleton, List.length_append, List.length_append,
      List.length_append, hbefore, hafter, List.length_singleton]
    omega
  | written s l current none_left lane =>
    have hless := lane.left_lt nofun
    have hpending := pending_finish_le lane
    dsimp only at hpending ⊢
    omega
  | failed s l current left alone lane =>
    have hless := lane.left_lt nofun
    have hpending := pending_finish_le lane
    dsimp only at hpending ⊢
    omega
  | received m rest oldest =>
    rw [oldest, List.length_cons]
    exact Nat.lt_succ_self _

theorem next_of_step? (h : w.step? x = some w') : w.next x = w' := by
  unfold next
  rw [h]
  rfl

/-- Nothing that the worker or the receiver does is in vain. -/
theorem Sound.left_next (h : Sound name queue w) (hx : x.isOwn = true) :
    w.next x = w ∨ (w.next x).left < w.left := by
  cases hstep : w.step? x with
  | none =>
    left
    unfold Relay.next
    rw [hstep]
    rfl
  | some w' =>
    right
    rw [next_of_step? hstep]
    exact h.left_lt hx (step_cases h.lane.receiver hstep)

theorem isSome_finish? {s : SyncedSet} (hcurrent : w.lane.feed.current = some s) (ok : Bool) :
    (w.finish? ok).isSome = true := by
  unfold finish? Lane.work?
  rw [hcurrent]
  rfl

/-- The worker has a turn when its queue is closed and nothing is on the channel. -/
theorem Sound.isSome_work? (h : Sound name queue w) (hclosing : w.lane.feed.closing = true)
    (hrunning : w.lane.feed.stopped = false) (hempty : w.channel.out.waiting = []) :
    w.work?.isSome = true := by
  unfold work?
  cases hcurrent : w.lane.feed.current with
  | none =>
    obtain ⟨t, l, ht, hwork⟩ := Lane.exists_work hclosing hrunning
    dsimp only
    rw [Option.isSome_map, Option.isSome_or, Bool.or_eq_true]
    cases t with
    | note n => exact absurd rfl (ht n)
    | take => exact Or.inl (Option.isSome_of_eq_some hwork)
    | stop => exact Or.inr (Option.isSome_of_eq_some hwork)
    | finish ok =>
      unfold Lane.work? at hwork
      rw [hcurrent] at hwork
      exact absurd hwork nofun
  | some s =>
    dsimp only
    split
    · exact isSome_finish? hcurrent true
    · next m rest _ =>
      cases hclosed : w.channel.out.closed with
      | true =>
        have hsend : w.channel.out.send m = (.closed, w.channel.out) := if_pos hclosed
        rw [hsend]
        exact isSome_finish? hcurrent false
      | false =>
        rcases Outbox.send_of_open hclosed m with ⟨-, hsend⟩ | ⟨hfull, -⟩
        · rw [hsend]
          rfl
        · rw [hempty] at hfull
          exact absurd h.room (Nat.not_lt_of_le hfull)

/-- Once the queue is closed there is something to be received or the worker has a turn, until all has
ended. -/
theorem Sound.exists_turn (h : Sound name queue w) (hclosing : w.lane.feed.closing = true)
    (hended : ¬ w.Ended) : ∃ x, x.isOwn = true ∧ (w.step? x).isSome = true := by
  cases hwaiting : w.channel.out.waiting with
  | cons m rest =>
    refine ⟨.receive, rfl, ?_⟩
    dsimp only [step?, Channel.receive, Outbox.receive]
    rw [hwaiting]
    rfl
  | nil =>
    have hrunning : w.lane.feed.stopped = false :=
      eq_false_of_ne_true fun hstopped => hended ⟨hstopped, hwaiting⟩
    exact ⟨.work, rfl, h.isSome_work? hclosing hrunning hwaiting⟩

/-- The worker and the receiver can bring everything to its end. -/
theorem Sound.exists_ended (h : Sound name queue w) (hclosing : w.lane.feed.closing = true) :
    ∃ ys, (∀ y ∈ ys, y.isOwn = true) ∧ (w.after ys).Ended ∧
      (w.after ys).channel.out.closed = w.channel.out.closed ∧ (w.after ys).answers = w.answers := by
  induction hn : w.left using Nat.strongRecOn generalizing w with
  | _ n ih =>
    by_cases hended : w.Ended
    · exact ⟨[], nofun, hended, rfl, rfl⟩
    · obtain ⟨x, hx, hturn⟩ := h.exists_turn hclosing hended
      obtain ⟨w', hstep⟩ := Option.isSome_iff_exists.1 hturn
      have hcases := step_cases h.lane.receiver hstep
      obtain ⟨hclosing', hclosed', hanswers'⟩ := hcases.own_frame hx
      obtain ⟨ys, hys, hend, hclosed, hanswers⟩ :=
        ih w'.left (hn ▸ h.left_lt hx hcases) (h.step hcases) (hclosing'.trans hclosing) rfl
      refine ⟨x :: ys, ?_, ?_⟩
      · intro y hy
        rcases List.mem_cons.1 hy with rfl | hy
        · exact hx
        · exact hys y hy
      · change ((w.next x).after ys).Ended ∧ ((w.next x).after ys).channel.out.closed = _ ∧
          ((w.next x).after ys).answers = _
        rw [next_of_step? hstep]
        exact ⟨hend, hclosed.trans hclosed', hanswers.trans hanswers'⟩

/-! ## Rounds without a receiver -/

/-- The receiver is gone, and of the rounds from a number on the empty ones alone are written. -/
structure Deserted (n : Nat) (w : Relay) : Prop where
  alone : w.channel.out.closed = true
  fresh : n ≤ w.lane.finished.length → w.channel.sent = 0
  failed : ∀ (i : Nat) s ok, n ≤ i → w.lane.finished[i]? = some (s, ok) → ok = s.isEmpty

namespace Deserted

variable {n : Nat}

theorem start (h : Sound name queue w) (halone : w.channel.out.closed = true) :
    Deserted w.lane.passed.length w where
  alone := halone
  fresh hle := by
    apply h.fresh
    unfold Lane.passed at hle
    rw [List.length_append, List.length_map] at hle
    cases hcurrent : w.lane.feed.current with
    | none => rfl
    | some s =>
      rw [hcurrent] at hle
      exact absurd hle (Nat.not_succ_le_self _)
  failed i s ok hle hi := by
    have hlt := (List.getElem?_eq_some_iff.1 hi).1
    unfold Lane.passed at hle
    rw [List.length_append, List.length_map] at hle
    omega

/-- A round that is done with is written if no message was left, and that is so for empty ones only. -/
theorem finished (h : Deserted n w) {s : SyncedSet} {ok : Bool} {l : Lane}
    (hlane : Lane.Step w.lane (.task (.finish ok)) l) (hcurrent : w.lane.feed.current = some s)
    (hok : ok = (s.announced.drop w.channel.sent).isEmpty) :
    Deserted n { w with lane := l, channel := { w.channel with sent := 0 } } := by
  have hfinished : l.finished = w.lane.finished ++ [(s, ok)] := by
    cases hlane with
    | finished s' _ current =>
      rw [← Option.some.inj (hcurrent.symm.trans current)]
  refine ⟨h.alone, fun _ => rfl, fun i s' ok' hle hi => ?_⟩
  dsimp only at hi
  rw [hfinished] at hi
  rcases Nat.lt_trichotomy i w.lane.finished.length with hlt | rfl | hgt
  · rw [List.getElem?_append_left hlt] at hi
    exact h.failed i s' ok' hle hi
  · rw [List.getElem?_concat_length] at hi
    obtain ⟨rfl, rfl⟩ := Prod.mk.inj (Option.some.inj hi)
    rw [hok, h.fresh hle, List.drop_zero, s.isEmpty_announced]
  · rw [List.getElem?_eq_none (by rw [List.length_append, List.length_singleton]; omega)] at hi
    exact absurd hi nofun

theorem step (h : Deserted n w) (hstep : Step w x w') : Deserted n w' := by
  have hlane : ∀ {y l}, Lane.Step w.lane y l → l.finished = w.lane.finished →
      Deserted n { w with lane := l } := by
    intro y l _ hfinished
    refine ⟨h.alone, fun hle => h.fresh (hfinished ▸ hle), fun i s ok hle hi => ?_⟩
    exact h.failed i s ok hle (hfinished ▸ hi)
  cases hstep with
  | offered s l lane =>
    have hfinished : l.finished = w.lane.finished := by
      cases lane with
      | queued _ _ _ => rfl
      | dropped _ _ _ => rfl
    exact { hlane lane hfinished with }
  | closed l lane => exact hlane lane (by cases lane with | closed _ => rfl)
  | taken l lane => exact hlane lane (by cases lane with | taken _ _ _ _ => rfl)
  | stopped l lane => exact hlane lane (by cases lane with | stopped _ _ _ _ => rfl)
  | put _ _ _ _ _ listening => exact absurd (listening.symm.trans h.alone) nofun
  | written s l current none_left lane => exact h.finished lane current (by rw [none_left]; rfl)
  | failed s l current left alone lane =>
    exact h.finished lane current (List.isEmpty_eq_false_iff.2 left).symm
  | received m rest oldest => exact ⟨h.alone, h.fresh, h.failed⟩
  | left listening => exact absurd (listening.symm.trans h.alone) nofun

theorem after (h : Deserted n w) (hsound : Sound name queue w) (ys : List Event) :
    Deserted n (w.after ys) := by
  induction ys using List.reverseRecOn with
  | nil => exact h
  | append_singleton ys y ih =>
    rw [after_concat]
    unfold Relay.next
    cases hstep : (w.after ys).step? y with
    | none => exact ih
    | some w' => exact ih.step (step_cases (hsound.after ys).lane.receiver hstep)

end Deserted

/-! ## The worker as it is run -/

/-- A relay after a number of turns of its worker. -/
def worked (w : Relay) (n : Nat) : Relay := w.after (List.replicate n .work)

theorem worked_add (w : Relay) (n k : Nat) : w.worked (n + k) = (w.worked n).worked k := by
  unfold worked
  rw [List.replicate_add, after_append]

theorem worked_one (w : Relay) : w.worked 1 = w.next .work := rfl

/-- The worker takes what `Feed.next` says. -/
theorem exists_worked_next {s : SyncedSet} {f : Feed} (h : w.lane.feed.next = some (s, f)) :
    ∃ n, (w.worked n).lane.feed = f ∧ (w.worked n).channel = w.channel ∧ f.current = some s := by
  cases hcurrent : w.lane.feed.current with
  | some s' =>
    unfold Feed.next at h
    rw [hcurrent] at h
    obtain ⟨rfl, rfl⟩ := Prod.mk.inj (Option.some.inj h)
    exact ⟨0, rfl, rfl, hcurrent⟩
  | none =>
    have hstep : w.step? .work = some { w with lane := { w.lane with feed := f } } := by
      dsimp only [step?, work?]
      rw [hcurrent]
      dsimp only [Lane.work?]
      rw [hcurrent]
      dsimp only
      rw [h]
      rfl
    refine ⟨1, ?_, ?_, ?_⟩
    · rw [worked_one, next_of_step? hstep]
    · rw [worked_one, next_of_step? hstep]
    · unfold Feed.next at h
      rw [hcurrent] at h
      dsimp only at h
      split at h
      · exact absurd h nofun
      · obtain ⟨rfl, rfl⟩ := Prod.mk.inj (Option.some.inj h)
        rfl

/-- A turn in which the worker is done with the round in hand. -/
theorem next_work_of_finish {s : SyncedSet} (hcurrent : w.lane.feed.current = some s) {ok : Bool}
    (h : w.work? = w.finish? ok) :
    (w.next .work).lane.feed = w.lane.feed.finish ok ∧
      (w.next .work).channel = { w.channel with sent := 0 } := by
  have hstep : w.step? .work = w.finish? ok := h
  unfold finish? Lane.work? at hstep
  rw [hcurrent] at hstep
  rw [next_of_step? hstep]
  exact ⟨rfl, rfl⟩

/-- Whether a relay is as far with the round that a feed has in hand as the channel says. -/
def IsAt (w : Relay) (f : Feed) : Progress Channel → Prop
  | .finished ok c => w.lane.feed = f.finish ok ∧ w.channel = c
  | .waiting c => w.lane.feed = f ∧ w.channel = c
  | .broken _ => False

theorem exists_isAt_push (ms : List PublishedCloud) {s : SyncedSet}
    (hcurrent : w.lane.feed.current = some s) (hleft : s.messages.drop w.channel.sent = ms) :
    ∃ n, (w.worked n).IsAt w.lane.feed (w.channel.push ms) := by
  induction ms generalizing w with
  | nil =>
    have hfinish : w.work? = w.finish? true := by
      unfold work?
      rw [hcurrent]
      dsimp only
      rw [hleft]
    exact ⟨1, next_work_of_finish hcurrent hfinish⟩
  | cons m rest ih =>
    unfold Channel.push
    cases hsend : w.channel.out.send m with
    | mk answer out =>
      have hwork : w.work? = match (answer, out) with
          | (.queued, out) => some { w with channel := ⟨out, w.channel.sent + 1⟩ }
          | (.full, _) => none
          | (.closed, _) => w.finish? false := by
        unfold work?
        rw [hcurrent]
        dsimp only
        rw [hleft]
        dsimp only
        rw [hsend]
      cases answer with
      | queued =>
        have hnext : w.next .work = { w with channel := ⟨out, w.channel.sent + 1⟩ } :=
          next_of_step? hwork
        obtain ⟨n, hn⟩ := ih (w := { w with channel := ⟨out, w.channel.sent + 1⟩ }) hcurrent
          (drop_succ_of_drop hleft)
        refine ⟨1 + n, ?_⟩
        rw [worked_add, worked_one, hnext]
        exact hn
      | full => exact ⟨0, rfl, rfl⟩
      | closed => exact ⟨1, next_work_of_finish hcurrent hwork⟩

theorem exists_worked_work (k : Nat) (w : Relay) :
    ∃ n, w.lane.feed.work Channel.sink k w.channel = ((w.worked n).lane.feed, (w.worked n).channel) := by
  induction k generalizing w with
  | zero => exact ⟨0, rfl⟩
  | succ k ih =>
    unfold Feed.work
    cases hnext : w.lane.feed.next with
    | none => exact ⟨0, rfl⟩
    | some p =>
      obtain ⟨s, f⟩ := p
      obtain ⟨n, hfeed, hchannel, hcurrent⟩ := exists_worked_next hnext
      obtain ⟨k', hpush⟩ := exists_isAt_push (s.messages.drop (w.worked n).channel.sent)
        (hfeed ▸ hcurrent) rfl
      have hwrite : Channel.sink.write s w.channel
          = w.channel.push (s.messages.drop w.channel.sent) := rfl
      rw [← worked_add, hfeed, hchannel, ← hwrite] at hpush
      dsimp only
      cases hresult : Channel.sink.write s w.channel with
      | finished ok c =>
        rw [hresult] at hpush
        obtain ⟨m, hm⟩ := ih (w.worked (n + k'))
        refine ⟨n + k' + m, ?_⟩
        rw [worked_add, ← hm, hpush.1, hpush.2]
      | waiting c =>
        rw [hresult] at hpush
        refine ⟨n + k', ?_⟩
        rw [hpush.1, hpush.2]
      | broken c =>
        rw [hresult] at hpush
        exact hpush.elim

theorem empty_of_backlog {f : Feed} (h : f.backlog = 0) :
    f.queue.waiting = [] ∧ f.current = none := by
  unfold Feed.backlog at h
  obtain ⟨hwaiting, hcurrent⟩ := Nat.add_eq_zero_iff.1 h
  refine ⟨List.length_eq_zero_iff.1 hwaiting, ?_⟩
  cases hfree : f.current with
  | none => rfl
  | some s =>
    rw [hfree] at hcurrent
    exact absurd hcurrent nofun

/-- All that the worker can do before somebody else goes on is a number of its turns. -/
theorem exists_worked_settle (w : Relay) :
    ∃ n, w.lane.feed.settle Channel.sink w.channel
      = ((w.worked n).lane.feed, (w.worked n).channel) := by
  obtain ⟨n, hn⟩ := exists_worked_work w.lane.feed.backlog w
  unfold Feed.settle
  rw [hn]
  dsimp only
  by_cases hrest : ((w.worked n).lane.feed.closing && !(w.worked n).lane.feed.stopped
      && (w.worked n).lane.feed.backlog == 0) = true
  · have hstep : (w.worked n).step? .work = some { w.worked n with
        lane := { (w.worked n).lane with
          feed := ((w.worked n).lane.feed.rest Sink.idle ()).1 } } := by
      have hbacklog : (w.worked n).lane.feed.backlog = 0 := eq_of_beq (Bool.and_elim_right hrest)
      obtain ⟨hempty, hfree⟩ := empty_of_backlog hbacklog
      dsimp only [step?, work?]
      rw [hfree]
      dsimp only [Lane.work?, Feed.next, Outbox.receive]
      rw [hfree, hempty]
      dsimp only
      rw [if_pos hrest]
      rfl
    refine ⟨n + 1, ?_⟩
    rw [worked_add, worked_one, next_of_step? hstep]
    unfold Feed.rest
    rw [if_pos hrest, if_pos hrest]
    rfl
  · refine ⟨n, ?_⟩
    unfold Feed.rest
    rw [if_neg hrest]

/-! ## What the receiver gets -/

/-- What becomes of the rounds that are offered to a channel sink, and of their messages. -/
structure Delivers (w : Relay) : Prop where
  /-- Every round that is offered before the queue is closed has an answer. -/
  answered : ∀ s, w.lane.feed.closing = false →
    (w.next (.offer s)).answers = w.answers ++ [(s, (w.lane.feed.offer s).1)]
  queued_or_full : ∀ a ∈ w.answers, a.2 = .queued ∨ a.2 = .full
  /-- The rounds that were not queued are those that are counted as dropped. -/
  dropped_eq : w.lane.feed.tally.dropped = w.answers.countP (·.2 = .full)
  failed_eq : w.lane.feed.tally.failed = w.lane.finished.countP (!·.2)
  in_order : w.received <+: streamOf w.accepted
  /-- With a receiver no message is lost, and no round fails. -/
  complete : w.channel.out.closed = false →
    w.received ++ w.channel.out.waiting ++ w.pending = streamOf w.accepted ∧
      w.lane.feed.tally.failed = 0
  /-- A receiver that stays to the end gets all messages of the rounds that were queued. -/
  received_eq : w.channel.out.closed = false → w.Ended →
    w.received = streamOf w.accepted ∧ w.lane.feed.tally.written = w.accepted.length
  /-- Once the queue is closed, the worker and the receiver can bring everything to its end. -/
  ends : w.lane.feed.closing = true → ∃ ys, (∀ y ∈ ys, y.isOwn = true) ∧ (w.after ys).Ended ∧
    (w.after ys).channel.out.closed = w.channel.out.closed ∧ (w.after ys).answers = w.answers
  /-- One of them has a turn before that, and every turn brings the end nearer. -/
  nearer : w.lane.feed.closing = true → ¬ w.Ended → ∃ x, x.isOwn = true ∧ (w.next x).left < w.left
  steady : ∀ x, x.isOwn = true → w.next x = w ∨ (w.next x).left < w.left
  /-- Without a receiver, a round that the worker takes from then on fails if it has a cloud. -/
  deserted : w.channel.out.closed = true → ∀ ys (i : Nat) s ok, w.lane.passed.length ≤ i →
    (w.after ys).lane.finished[i]? = some (s, ok) → ok = s.isEmpty
  /-- Letting the worker do all that it can is a number of its turns. -/
  settles : ∃ n, w.lane.feed.settle Channel.sink w.channel
    = ((w.worked n).lane.feed, (w.worked n).channel)

namespace Sound

theorem received_append (h : Sound name queue w) (hlistening : w.channel.out.closed = false) :
    w.received ++ w.channel.out.waiting ++ w.pending = streamOf w.accepted := by
  rw [(h.listening hlistening).1, h.accepted_eq]
  unfold put pending Lane.queued Lane.passed
  rw [streamOf_append, streamOf_append, List.append_assoc, List.append_assoc]
  congr 1
  rw [← List.append_assoc, List.take_append_drop]

theorem failed_eq_zero (h : Sound name queue w) (hlistening : w.channel.out.closed = false) :
    w.lane.feed.tally.failed = 0 := by
  rw [h.lane.failed_eq, List.countP_eq_zero]
  intro p hp
  rw [(h.listening hlistening).2 p hp]
  exact Bool.false_ne_true

theorem received_of_ended (h : Sound name queue w) (hlistening : w.channel.out.closed = false)
    (hended : w.Ended) :
    w.received = streamOf w.accepted ∧ w.lane.feed.tally.written = w.accepted.length := by
  obtain ⟨-, hempty, hfree, -⟩ := h.lane.rested hended.1
  have hall := h.received_append hlistening
  have hpending : w.pending = [] := by
    unfold pending
    rw [hempty, hfree]
    exact List.append_eq_nil_iff.2 ⟨List.drop_nil, rfl⟩
  rw [hended.2, hpending, List.append_nil, List.append_nil] at hall
  refine ⟨hall, ?_⟩
  have haccepted : w.accepted = w.lane.finished.map Prod.fst := by
    rw [h.accepted_eq]
    unfold Lane.queued Lane.passed
    rw [hempty, hfree, Option.toList_none, List.append_nil, List.append_nil]
  rw [haccepted, List.length_map, h.lane.written_eq, List.countP_eq_length]
  exact (h.listening hlistening).2

theorem delivers (h : Sound name queue w) : w.Delivers where
  answered s hsending := by
    have hstep : w.step? (.offer s) = some { w with
        lane := { w.lane with feed := (w.lane.feed.offer s).2, offered := w.lane.offered ++ [s] }
        answers := w.answers ++ [(s, (w.lane.feed.offer s).1)] } := by
      dsimp only [step?, Lane.step?]
      rw [hsending, if_neg Bool.false_ne_true]
      rfl
    rw [next_of_step? hstep]
  queued_or_full a ha := by
    have hanswer := h.answered a ha
    cases hkind : a.2 with
    | queued => exact Or.inl rfl
    | full => exact Or.inr rfl
    | closed => exact absurd hkind hanswer
  dropped_eq := h.dropped_eq
  failed_eq := h.lane.failed_eq
  in_order := (List.prefix_append _ _).trans h.arrived
  complete hlistening := ⟨h.received_append hlistening, h.failed_eq_zero hlistening⟩
  received_eq := h.received_of_ended
  ends := h.exists_ended
  nearer hclosing hended := by
    obtain ⟨x, hx, hturn⟩ := h.exists_turn hclosing hended
    obtain ⟨w', hstep⟩ := Option.isSome_iff_exists.1 hturn
    refine ⟨x, hx, ?_⟩
    rw [next_of_step? hstep]
    exact h.left_lt hx (step_cases h.lane.receiver hstep)
  steady x hx := h.left_next hx
  deserted halone ys i s ok hle hi := ((Deserted.start h halone).after h ys).failed i s ok hle hi
  settles := w.exists_worked_settle

end Sound

/-- Whatever the capacities of the queue and of the channel, and whatever the order in which rounds are
offered, messages received and turns taken: what is received is in the order of the rounds that were
queued, each whole and once, with a message for each cloud under its output topic, and the other rounds
are those counted as dropped. A receiver that stays gets all of it, however slowly it receives; when it
has gone away, the rounds that are begun after that and have a cloud fail. -/
theorem rounds_streamed (name : String) (queue channel : Nat) (xs : List Event) :
    ((ofCapacities name queue channel).after xs).Delivers :=
  ((Sound.ofCapacities name queue channel).after xs).delivers

end Relay

end LidarSync
