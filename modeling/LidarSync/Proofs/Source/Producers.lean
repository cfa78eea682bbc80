import LidarSync.Proofs.Source.Pool
import LidarSync.Proofs.Source.Turns
import Mathlib.Data.List.Perm.Basic
import Mathlib.Data.Set.Subsingleton

/-!
# Deliveries of one source side by side

A source that is started again while a delivery from an earlier start has not ended revives it: the
delivery looks at whether its source is running only when it is next due, and then finds it running. From
there on there are two. This is the only way: of the deliveries of a source no two can ever send, exactly
if each start came after the end of the deliveries from earlier ones (`SourcePool.single_iff`). A delivery
is never silenced while its source runs and someone receives.
-/

namespace LidarSync

theorem SourceTask.source_of_start? {s : Source} {clock : SourceClock} {now : Instant} {t : SourceTask}
    (h : start? s clock now = some t) : t.source = s := by
  unfold start? at h
  split at h
  · split at h
    · obtain rfl := Option.some.inj h
      rfl
    · exact absurd h nofun
  · exact absurd h nofun

theorem SourceTask.start?_of_no_period {s : Source} {clock : SourceClock} {now : Instant}
    (h : s.period?.isSome = false) : start? s clock now = none := by
  have hnone := Option.not_isSome_iff_eq_none.1 (Bool.eq_false_iff.1 h)
  unfold start?
  rw [hnone]

namespace SourcePool

variable {p q r : SourcePool} {k : Option Topic} {t : SourceTask} {ts : List SourceTask}
  {s : Source} {clock : SourceClock} {now : Instant} {promised i : Nat}

/-! ## What happens to a pool -/

/-- The delivery in a place has a turn at an instant, with some of the room in the channel promised to
others. -/
def turn (p : SourcePool) (i : Nat) (now : Instant) (promised : Nat) : SourcePool :=
  match p.idle[i]? with
  | some t => run now promised t { p with idle := p.idle.eraseIdx i }
  | none =>
    let j := i - p.idle.length
    match p.blocked[j]? with
    | some (t, m) =>
      let rest := { p with blocked := p.blocked.eraseIdx j }
      if p.channel.closed then rest.lose t
      else if p.channel.waiting.length + promised < p.channel.capacity then goOn now promised t m rest
      else p
    | none => p

/-- What can happen to a pool: calls, turns of single deliveries and of all, and what its receiver does. -/
inductive Event where
  | start (s : Source) (clock : SourceClock) (now : Instant)
  | stop (topic? : Option Topic)
  | turn (i : Nat) (now : Instant) (promised : Nat)
  | settle (now : Instant)
  | receive
  | dropReceiver

/-- The pool after an event. A start that is refused changes nothing. -/
def next (p : SourcePool) : Event → SourcePool
  | .start s clock now => (p.start s clock now).toOption.getD p
  | .stop topic? => p.stop topic?
  | .turn i now promised => p.turn i now promised
  | .settle now => p.settle now
  | .receive => p.receive.2
  | .dropReceiver => p.dropReceiver

def after (p : SourcePool) (xs : List Event) : SourcePool := xs.foldl next p

/-- A start of a source now is accepted and begins a delivery. -/
structure Begins (p : SourcePool) (s : Source) : Prop where
  stopped : p.isRunning s.topic? = false
  period : s.period?.isSome = true

/-- The delivery in a place is of a source, and can send: there is an instant at which it does, if all that
waits has been received and nobody calls `start` or `stop`. -/
def CanSend (p : SourcePool) (k : Option Topic) (i : Nat) : Prop :=
  ∃ t, p.tasks[i]? = some t ∧ t.source.topic? = k ∧
    ∃ now, p.sent < (p.receiveAll.2.turn i now 0).sent

/-! ## What becomes of the deliveries of a source -/

/-- No delivery of a source begins, and none ends while the source runs and someone receives. -/
structure Ages (k : Option Topic) (p q : SourcePool) : Prop where
  closed : q.channel.closed = p.channel.closed
  capacity : q.channel.capacity = p.channel.capacity
  underWay_le : q.underWay k ≤ p.underWay k
  live : p.Live k → q.Live k
  underWay_eq : p.Live k → q.underWay k = p.underWay k
  goOn : p.Live k → ∀ t ∈ p.tasks, t.source.topic? = k → ∃ n, t.later n ∈ q.tasks

namespace Ages

theorem refl (k : Option Topic) (p : SourcePool) : Ages k p p where
  closed := rfl
  capacity := rfl
  underWay_le := Nat.le_refl _
  live := id
  underWay_eq _ := rfl
  goOn _ _ ht _ := ⟨0, ht⟩

theorem trans (h : Ages k p q) (h' : Ages k q r) : Ages k p r where
  closed := h'.closed.trans h.closed
  capacity := h'.capacity.trans h.capacity
  underWay_le := h'.underWay_le.trans h.underWay_le
  live hlive := h'.live (h.live hlive)
  underWay_eq hlive := (h'.underWay_eq (h.live hlive)).trans (h.underWay_eq hlive)
  goOn hlive t ht hk := by
    obtain ⟨m, hm⟩ := h.goOn hlive t ht hk
    obtain ⟨n, hn⟩ := h'.goOn (h.live hlive) _ hm (by rw [source_later]; exact hk)
    exact ⟨m + n, by rw [← SourceTask.later_later]; exact hn⟩

end Ages

/-- Some deliveries of a pool have turns, while the others wait. -/
theorem Adds.ages {idle : List SourceTask} {blocked : List (SourceTask × Inbound)}
    (h : Adds ts { p with idle, blocked } q) (hperm : p.tasks.Perm (ts ++ (idle ++ blocked.map Prod.fst)))
    (k : Option Topic) : Ages k p q := by
  have hcount : p.underWay k = countOf k ts + underWay { p with idle, blocked } k := by
    unfold underWay
    rw [countOf_perm hperm, countOf_append]
    rfl
  have hwaits (hlive : p.Live k) : Live { p with idle, blocked } k := ⟨hlive.running, hlive.receiver⟩
  refine ⟨h.carries.closed, h.carries.capacity, hcount ▸ h.underWay_le k, fun hlive =>
    h.carries.live (hwaits hlive), fun hlive => ?_, fun hlive t ht hk => ?_⟩
  · exact (h.goOn k (hwaits hlive)).1.trans hcount.symm
  · rcases List.mem_append.1 (hperm.mem_iff.1 ht) with ht | ht
    · exact (h.goOn k (hwaits hlive)).2 t ht hk
    · exact ⟨0, h.kept ht⟩

/-! ## Turns -/

theorem turn_of_idle (h : p.idle[i]? = some t) :
    p.turn i now promised = run now promised t { p with idle := p.idle.eraseIdx i } := by
  unfold turn
  rw [h]

theorem turn_of_blocked (h : p.idle[i]? = none) {m : Inbound}
    (hblocked : p.blocked[i - p.idle.length]? = some (t, m)) :
    p.turn i now promised =
      if p.channel.closed then
        lose { p with blocked := p.blocked.eraseIdx (i - p.idle.length) } t
      else if p.channel.waiting.length + promised < p.channel.capacity then
        goOn now promised t m { p with blocked := p.blocked.eraseIdx (i - p.idle.length) }
      else p := by
  unfold turn
  rw [h]
  dsimp only
  rw [hblocked]

theorem turn_of_none (h : p.idle[i]? = none) (hblocked : p.blocked[i - p.idle.length]? = none) :
    p.turn i now promised = p := by
  unfold turn
  rw [h]
  dsimp only
  rw [hblocked]

/-- What stands in a place stands in front of what is left without it. -/
theorem perm_cons_eraseIdx {α : Type} {l : List α} {a : α} (h : l[i]? = some a) :
    l.Perm (a :: l.eraseIdx i) := by
  obtain ⟨hi, rfl⟩ := List.getElem?_eq_some_iff.1 h
  exact (List.getElem_cons_eraseIdx_perm hi).symm

theorem ages_turn (k : Option Topic) (p : SourcePool) (i : Nat) (now : Instant) (promised : Nat) :
    Ages k p (p.turn i now promised) := by
  cases hidle : p.idle[i]? with
  | some t =>
    rw [turn_of_idle hidle]
    have hturn := adds_run now promised t { p with idle := p.idle.eraseIdx i }
    exact hturn.ages ((perm_cons_eraseIdx hidle).append_right _) k
  | none =>
    cases hblocked : p.blocked[i - p.idle.length]? with
    | none =>
      rw [turn_of_none hidle hblocked]
      exact .refl k p
    | some e =>
      obtain ⟨t, m⟩ := e
      rw [turn_of_blocked hidle hblocked]
      have hperm := ((perm_cons_eraseIdx hblocked).map Prod.fst).append_left p.idle
      split
      · next hclosed =>
        have hturn :=
          adds_lose (p := { p with blocked := p.blocked.eraseIdx (i - p.idle.length) }) hclosed t
        exact hturn.ages (hperm.trans List.perm_middle) k
      · split
        · have hturn :=
            adds_goOn now promised t m { p with blocked := p.blocked.eraseIdx (i - p.idle.length) }
          exact hturn.ages (hperm.trans List.perm_middle) k
        · exact .refl k p

theorem ages_settleBlocked (k : Option Topic) (p : SourcePool) (now : Instant) :
    Ages k p (p.settleBlocked now) := by
  unfold settleBlocked
  dsimp only
  split
  · next hclosed =>
    have hturns := adds_foldl_lose (p := { p with blocked := [] }) p.blocked hclosed
    refine hturns.ages ?_ k
    rw [List.map_nil, List.append_nil]
    exact List.perm_append_comm
  · generalize p.channel.capacity - p.channel.waiting.length = room
    have hturns :=
      adds_release now (p.blocked.take room) { p with blocked := p.blocked.drop room }
    refine hturns.ages ?_ k
    have hcut : p.tasks = p.idle ++
        ((p.blocked.take room).map Prod.fst ++ (p.blocked.drop room).map Prod.fst) := by
      rw [← List.map_append, List.take_append_drop]
      rfl
    rw [hcut]
    exact List.perm_append_comm_assoc _ _ _

theorem ages_settle (k : Option Topic) (p : SourcePool) (now : Instant) : Ages k p (p.settle now) := by
  refine (ages_settleBlocked k p now).trans ?_
  rw [settle_eq]
  have hturns := adds_foldl_run now ((p.settleBlocked now).idle.filter (·.due ≤ now))
    { p.settleBlocked now with
      idle := (p.settleBlocked now).idle.filter fun t => !decide (t.due ≤ now) }
  refine hturns.ages ?_ k
  rw [← List.append_assoc]
  exact (List.filter_append_perm _ _).symm.append_right _

/-! ## Calls -/

/-- A refused start changes nothing. -/
theorem next_start_of_running (h : p.isRunning s.topic? = true) : p.next (.start s clock now) = p := by
  show (p.start s clock now).toOption.getD p = p
  unfold start
  rw [if_pos h]
  rfl

theorem next_start_of_stopped (h : p.isRunning s.topic? = false) :
    p.next (.start s clock now) =
      { p with
        running := s.topic? :: p.running
        idle := p.idle ++ (SourceTask.start? s clock now).toList } := by
  show (p.start s clock now).toOption.getD p = _
  unfold start
  rw [if_neg (Bool.eq_false_iff.1 h)]
  rfl

theorem underWay_start (clock : SourceClock) (now : Instant) (h : p.isRunning s.topic? = false)
    (k : Option Topic) : (p.next (.start s clock now)).underWay k =
      p.underWay k + countOf k (SourceTask.start? s clock now).toList := by
  rw [next_start_of_stopped h]
  unfold underWay tasks
  rw [countOf_append, countOf_append, countOf_append]
  exact Nat.add_right_comm _ _ _

/-- A start of another source, or one that begins no delivery. -/
theorem ages_start (clock : SourceClock) (now : Instant) (h : s.topic? = k → ¬ p.Begins s) :
    Ages k p (p.next (.start s clock now)) := by
  cases hrunning : p.isRunning s.topic? with
  | true =>
    rw [next_start_of_running hrunning]
    exact .refl k p
  | false =>
    have hothers : countOf k (SourceTask.start? s clock now).toList = 0 := by
      by_cases hk : s.topic? = k
      · have hperiod := Bool.eq_false_iff.2 fun hperiod => h hk ⟨hrunning, hperiod⟩
        rw [SourceTask.start?_of_no_period hperiod]
        rfl
      · cases hfirst : SourceTask.start? s clock now with
        | none => rfl
        | some first =>
          refine countOf_singleton_eq_zero ?_
          rw [SourceTask.source_of_start? hfirst]
          exact hk
    have hcount := underWay_start (k := k) clock now hrunning
    rw [hothers, Nat.add_zero] at hcount
    rw [next_start_of_stopped hrunning] at hcount ⊢
    refine ⟨rfl, rfl, hcount.le, fun hlive => ⟨?_, hlive.receiver⟩, fun _ => hcount,
      fun _ t ht _ => ⟨0, ?_⟩⟩
    · unfold isRunning
      rw [List.contains_cons, Bool.or_eq_true]
      exact Or.inr hlive.running
    · unfold tasks at ht ⊢
      rw [List.append_assoc, List.mem_append]
      exact (List.mem_append.1 ht).imp_right (List.mem_append_right _)

/-- A start that begins a delivery adds it to those that are under way. -/
theorem next_start_of_begins (clock : SourceClock) (now : Instant) (h : p.Begins s) :
    ∃ first, SourceTask.start? s clock now = some first ∧ first.source = s ∧
      first ∈ (p.next (.start s clock now)).tasks ∧
      (p.next (.start s clock now)).underWay s.topic? = p.underWay s.topic? + 1 ∧
      (p.next (.start s clock now)).isRunning s.topic? = true := by
  obtain ⟨first, hfirst, hsource⟩ := SourceTask.start?_of_period clock now h.period
  have hcount := underWay_start clock now h.stopped s.topic?
  have hone : countOf s.topic? [first] = 1 := by
    unfold countOf
    rw [List.countP_singleton, hsource]
    exact if_pos (beq_self_eq_true _)
  rw [hfirst, Option.toList_some, hone] at hcount
  refine ⟨first, hfirst, hsource, ?_, hcount, ?_⟩
  · rw [next_start_of_stopped h.stopped, hfirst]
    exact List.mem_append_left _ (List.mem_append_right _ (List.mem_singleton_self _))
  · rw [next_start_of_stopped h.stopped]
    exact List.contains_iff_mem.2 List.mem_cons_self

theorem ages_stop (p : SourcePool) {topic? : Option Topic} (h : topic? ≠ k) :
    Ages k p (p.stop topic?) := by
  refine ⟨rfl, rfl, Nat.le_refl _, fun hlive => ⟨?_, hlive.receiver⟩, fun _ => rfl,
    fun _ t ht _ => ⟨0, ht⟩⟩
  have hmem := List.contains_iff_mem.1 hlive.running
  exact List.contains_iff_mem.2 (List.mem_filter.2 ⟨hmem, decide_eq_true h.symm⟩)

theorem isRunning_stop (p : SourcePool) (k : Option Topic) : (p.stop k).isRunning k = false := by
  refine Bool.eq_false_iff.2 fun hrunning => ?_
  have hmem := List.contains_iff_mem.1 hrunning
  exact absurd rfl (of_decide_eq_true (List.mem_filter.1 hmem).2)

theorem ages_receive (k : Option Topic) (p : SourcePool) : Ages k p p.receive.2 where
  closed := rfl
  capacity := rfl
  underWay_le := Nat.le_refl _
  live hlive := ⟨hlive.running, hlive.receiver⟩
  underWay_eq _ := rfl
  goOn _ _ ht _ := ⟨0, ht⟩

/-! ## Runs -/

theorem channel_start (p : SourcePool) (s : Source) (clock : SourceClock) (now : Instant) :
    (p.next (.start s clock now)).channel = p.channel := by
  cases hrunning : p.isRunning s.topic? with
  | true => rw [next_start_of_running hrunning]
  | false => rw [next_start_of_stopped hrunning]

theorem closed_next (p : SourcePool) {x : Event} (h : x ≠ .dropReceiver) :
    (p.next x).channel.closed = p.channel.closed := by
  cases x with
  | start s clock now => rw [channel_start]
  | stop topic? => rfl
  | turn i now promised => exact (ages_turn none p i now promised).closed
  | settle now => exact (ages_settle none p now).closed
  | receive => rfl
  | dropReceiver => exact absurd rfl h

theorem capacity_next (p : SourcePool) (x : Event) :
    (p.next x).channel.capacity = p.channel.capacity := by
  cases x with
  | start s clock now => rw [channel_start]
  | stop topic? => rfl
  | turn i now promised => exact (ages_turn none p i now promised).capacity
  | settle now => exact (ages_settle none p now).capacity
  | receive => rfl
  | dropReceiver => rfl

/-- Only a start that begins a delivery adds to those of its source. -/
theorem underWay_next_le (p : SourcePool) (x : Event)
    (h : ∀ s clock now, x = .start s clock now → s.topic? = k → ¬ p.Begins s) :
    (p.next x).underWay k ≤ p.underWay k := by
  cases x with
  | start s clock now => exact (ages_start clock now (h s clock now rfl)).underWay_le
  | stop topic? => exact Nat.le_refl _
  | turn i now promised => exact (ages_turn k p i now promised).underWay_le
  | settle now => exact (ages_settle k p now).underWay_le
  | receive => exact Nat.le_refl _
  | dropReceiver => exact Nat.le_refl _

/-- Only a stop, or the end of the receiver, ends deliveries of a source that runs. -/
theorem ages_next (hrunning : p.isRunning k = true) {x : Event} (h : x ≠ .stop k)
    (hreceiver : x ≠ .dropReceiver) : Ages k p (p.next x) := by
  cases x with
  | start s clock now =>
    refine ages_start clock now fun hk hbegins => ?_
    have hstopped := hbegins.stopped
    rw [hk, hrunning] at hstopped
    exact absurd hstopped nofun
  | stop topic? => exact ages_stop p fun heq => h (heq ▸ rfl)
  | turn i now promised => exact ages_turn k p i now promised
  | settle now => exact ages_settle k p now
  | receive => exact ages_receive k p
  | dropReceiver => exact absurd rfl hreceiver

theorem after_concat (p : SourcePool) (xs : List Event) (x : Event) :
    p.after (xs ++ [x]) = (p.after xs).next x := List.foldl_concat next p x xs

theorem after_append (p : SourcePool) (xs ys : List Event) :
    p.after (xs ++ ys) = (p.after xs).after ys := List.foldl_append

theorem closed_after (xs : List Event) (h : p.channel.closed = true) :
    (p.after xs).channel.closed = true := by
  induction xs generalizing p with
  | nil => exact h
  | cons x xs ih =>
    refine ih ?_
    by_cases hx : x = .dropReceiver
    · rw [hx]
      rfl
    · exact (closed_next p hx).trans h

theorem open_of_open_after (xs : List Event) (h : (p.after xs).channel.closed = false) :
    p.channel.closed = false :=
  Bool.eq_false_iff.2 fun hclosed => absurd (h.symm.trans (closed_after xs hclosed)) nofun

theorem capacity_after (p : SourcePool) (xs : List Event) :
    (p.after xs).channel.capacity = p.channel.capacity := by
  induction xs generalizing p with
  | nil => rfl
  | cons x xs ih => exact (ih (p.next x)).trans (p.capacity_next x)

/-- A source that runs and is not stopped keeps its deliveries. -/
theorem ages_after {xs : List Event} (hlive : p.Live k) (hstop : .stop k ∉ xs)
    (hopen : (p.after xs).channel.closed = false) : Ages k p (p.after xs) := by
  induction xs generalizing p with
  | nil => exact .refl k p
  | cons x xs ih =>
    have hreceiver : x ≠ .dropReceiver := by
      rintro rfl
      exact absurd (open_of_open_after (p := p.dropReceiver) xs hopen) nofun
    have hnext := ages_next hlive.running (fun hx => hstop (hx ▸ List.mem_cons_self)) hreceiver
    exact hnext.trans (ih (hnext.live hlive) (fun hmem => hstop (List.mem_cons_of_mem _ hmem)) hopen)

/-- While someone receives, each start of a source comes when no delivery of it is under way. -/
def Spaced (p : SourcePool) (k : Option Topic) (xs : List Event) : Prop :=
  ∀ ys s clock now, ys ++ [.start s clock now] <+: xs → s.topic? = k → (p.after ys).Begins s →
    (p.after ys).channel.closed = false → (p.after ys).underWay k = 0

theorem Spaced.of_isPrefix {xs ys : List Event} (h : p.Spaced k ys) (hxs : xs <+: ys) : p.Spaced k xs :=
  fun zs s clock now hzs => h zs s clock now (hzs.trans hxs)

/-- Spaced starts leave a single delivery. -/
theorem Spaced.underWay_le_one {xs : List Event} (h : p.Spaced k xs) (hnone : p.underWay k = 0) :
    (p.after xs).channel.closed = true ∨ (p.after xs).underWay k ≤ 1 := by
  induction xs using List.reverseRecOn with
  | nil => exact Or.inr (hnone.trans_le (Nat.zero_le 1))
  | append_singleton ys x ih =>
    rw [after_concat]
    rcases ih (h.of_isPrefix (List.prefix_append _ _)) with hclosed | hone
    · exact Or.inl (closed_after (p := p.after ys) [x] hclosed)
    by_cases hx : ∃ s clock now, x = .start s clock now ∧ s.topic? = k ∧ (p.after ys).Begins s
    · obtain ⟨s, clock, now, rfl, rfl, hbegins⟩ := hx
      obtain ⟨-, -, -, -, hcount, -⟩ := next_start_of_begins clock now hbegins
      cases hclosed : (p.after ys).channel.closed with
      | true => exact Or.inl (closed_after (p := p.after ys) [.start s clock now] hclosed)
      | false =>
        rw [h ys s clock now (List.prefix_refl _) rfl hbegins hclosed] at hcount
        exact Or.inr hcount.le
    · have hle := underWay_next_le (k := k) (p.after ys) x fun s clock now heq hk hbegins =>
        hx ⟨s, clock, now, heq, hk, hbegins⟩
      exact Or.inr (hle.trans hone)

/-! ## Who can send -/

theorem tasks_getElem?_of_idle (h : p.idle[i]? = some t) : p.tasks[i]? = some t := by
  obtain ⟨hi, -⟩ := List.getElem?_eq_some_iff.1 h
  exact (List.getElem?_append_left hi).trans h

theorem tasks_getElem?_of_blocked (h : p.idle[i]? = none) :
    p.tasks[i]? = (p.blocked[i - p.idle.length]?).map Prod.fst := by
  unfold tasks
  rw [List.getElem?_append_right (List.getElem?_eq_none_iff.1 h), List.getElem?_map]

theorem sent_lt_goOn (now : Instant) (promised : Nat) (t : SourceTask) (m : Inbound) (p : SourcePool) :
    p.sent < (goOn now promised t m p).sent := by
  unfold goOn
  dsimp only
  have hdeliver := p.sent_deliver m
  split
  · have hrun := (carries_run now promised t.next (p.deliver m)).sent
    omega
  · omega

/-- A delivery of a source that runs sends when it is due, where there is room. -/
theorem sent_lt_turn (hlive : p.Live k) (hroom : p.channel.waiting.length + promised < p.channel.capacity)
    (ht : p.tasks[i]? = some t) (hk : t.source.topic? = k) : p.sent < (p.turn i t.due promised).sent := by
  cases hidle : p.idle[i]? with
  | some u =>
    obtain rfl := Option.some.inj ((tasks_getElem?_of_idle hidle).symm.trans ht)
    rw [turn_of_idle hidle]
    exact sent_lt_run (p := { p with idle := p.idle.eraseIdx i }) (Nat.le_refl _)
      (hk ▸ ⟨hlive.running, hlive.receiver⟩) hroom
  | none =>
    rw [tasks_getElem?_of_blocked hidle] at ht
    obtain ⟨⟨u, m⟩, hblocked, rfl⟩ := Option.map_eq_some_iff.1 ht
    rw [turn_of_blocked hidle hblocked, if_neg (Bool.eq_false_iff.1 hlive.receiver), if_pos hroom]
    exact sent_lt_goOn _ _ u m { p with blocked := p.blocked.eraseIdx (i - p.idle.length) }

/-- Every delivery of a source that runs can send, while someone receives. -/
theorem canSend_of_live (hlive : p.Live k) (hroom : 0 < p.channel.capacity) (ht : p.tasks[i]? = some t)
    (hk : t.source.topic? = k) : p.CanSend k i := by
  have hemptied : p.receiveAll.2.Live k := ⟨hlive.running, hlive.receiver⟩
  exact ⟨t, ht, hk, t.due, sent_lt_turn hemptied hroom ht hk⟩

theorem sent_turn_of_closed (h : p.channel.closed = true) : (p.turn i now promised).sent = p.sent := by
  cases hidle : p.idle[i]? with
  | some t =>
    rw [turn_of_idle hidle]
    exact sent_run_of_closed (p := { p with idle := p.idle.eraseIdx i }) h
  | none =>
    cases hblocked : p.blocked[i - p.idle.length]? with
    | some e =>
      obtain ⟨t, m⟩ := e
      rw [turn_of_blocked hidle hblocked, if_pos h]
      rfl
    | none => rw [turn_of_none hidle hblocked]

/-- Without a receiver no delivery can send. -/
theorem not_canSend_of_closed (h : p.channel.closed = true) : ¬ p.CanSend k i := by
  rintro ⟨t, -, -, now, hsent⟩
  rw [sent_turn_of_closed (p := p.receiveAll.2) h] at hsent
  exact Nat.lt_irrefl _ hsent

/-- Where the deliveries of a source stand. -/
def places (p : SourcePool) (k : Option Topic) : Set Nat :=
  { i | ∃ t, p.tasks[i]? = some t ∧ t.source.topic? = k }

theorem places_subsingleton_iff (p : SourcePool) (k : Option Topic) :
    (p.places k).Subsingleton ↔ p.underWay k ≤ 1 := by
  unfold places underWay countOf
  induction p.tasks with
  | nil => exact iff_of_true (fun i ⟨t, ht, _⟩ => absurd ht nofun) (Nat.zero_le 1)
  | cons t ts ih =>
    rw [List.countP_cons]
    by_cases hk : t.source.topic? = k
    · rw [if_pos (beq_iff_eq.2 hk), Nat.succ_le_succ_iff, Nat.le_zero, List.countP_eq_zero]
      constructor
      · intro h u hu hku
        obtain ⟨j, hj⟩ := List.getElem?_of_mem hu
        exact absurd (h ⟨t, rfl, hk⟩ ⟨u, hj, beq_iff_eq.1 hku⟩) (Nat.zero_ne_add_one j)
      · intro hnone
        have hfirst (i : Nat) (h : ∃ u, (t :: ts)[i]? = some u ∧ u.source.topic? = k) : i = 0 := by
          obtain ⟨u, hu, hku⟩ := h
          cases i with
          | zero => rfl
          | succ i => exact absurd (beq_iff_eq.2 hku) (hnone u (List.mem_of_getElem? hu))
        exact fun i hi j hj => (hfirst i hi).trans (hfirst j hj).symm
    · rw [if_neg (beq_iff_eq.not.2 hk), Nat.add_zero, ← ih]
      constructor
      · exact fun h i hi j hj => Nat.succ.inj (h (x := i + 1) hi (y := j + 1) hj)
      · rintro h i ⟨u, hu, hku⟩ j ⟨v, hv, hkv⟩
        cases i with
        | zero => exact absurd (Option.some.inj hu ▸ hku) hk
        | succ i =>
          cases j with
          | zero => exact absurd (Option.some.inj hv ▸ hkv) hk
          | succ j => exact congrArg Nat.succ (h ⟨u, hu, hku⟩ ⟨v, hv, hkv⟩)

/-- A pool of which no source is started. -/
def fresh (sources : List Source) (capacity : Nat) : SourcePool :=
  { sources, channel := .ofCapacity capacity }

theorem room_of_fresh (sources : List Source) (capacity : Nat) (xs : List Event) :
    0 < ((fresh sources capacity).after xs).channel.capacity := by
  rw [capacity_after]
  exact Nat.lt_of_lt_of_le Nat.zero_lt_one (Nat.le_max_right capacity 1)

/-- A begun delivery leaves its source running. -/
theorem live_next (clock : SourceClock) (now : Instant) (h : p.Begins s)
    (hopen : p.channel.closed = false) : (p.next (.start s clock now)).Live s.topic? := by
  obtain ⟨-, -, -, -, -, hrunning⟩ := next_start_of_begins clock now h
  exact ⟨hrunning, by rw [channel_start]; exact hopen⟩

theorem subsingleton_canSend_iff_spaced (sources : List Source) (capacity : Nat) (k : Option Topic)
    (xs : List Event) :
    (∀ ys, ys <+: xs → { i | ((fresh sources capacity).after ys).CanSend k i }.Subsingleton) ↔
      (fresh sources capacity).Spaced k xs := by
  constructor
  · rintro halone ys s clock now hys rfl hbegins hopen
    have hplaces : (((fresh sources capacity).after (ys ++ [.start s clock now])).places
        s.topic?).Subsingleton := by
      refine (halone _ hys).anti fun i ⟨t, ht, hk⟩ => ?_
      refine canSend_of_live ?_ (room_of_fresh sources capacity _) ht hk
      rw [after_concat]
      exact live_next clock now hbegins hopen
    obtain ⟨-, -, -, -, hcount, -⟩ := next_start_of_begins clock now hbegins
    have hone := (places_subsingleton_iff _ _).1 hplaces
    rw [after_concat] at hone
    omega
  · intro hspaced ys hys
    rcases (hspaced.of_isPrefix hys).underWay_le_one rfl with hclosed | hone
    · exact fun i hi => absurd hi (not_canSend_of_closed hclosed)
    · exact ((places_subsingleton_iff _ _).2 hone).anti fun i ⟨t, ht, hk, _⟩ => ⟨t, ht, hk⟩

/-- A delivery that is begun goes on until its source is stopped, while someone receives. -/
theorem begun_goes_on (clock : SourceClock) (now : Instant) {xs : List Event} (hbegins : p.Begins s)
    (hstop : .stop s.topic? ∉ xs)
    (hopen : ((p.next (.start s clock now)).after xs).channel.closed = false) :
    ((p.next (.start s clock now)).after xs).Live s.topic? ∧
      ((p.next (.start s clock now)).after xs).underWay s.topic? = p.underWay s.topic? + 1 ∧
      ∃ first n, SourceTask.start? s clock now = some first ∧ first.source = s ∧
        first.later n ∈ ((p.next (.start s clock now)).after xs).tasks := by
  obtain ⟨first, hfirst, hsource, hmem, hcount, -⟩ := next_start_of_begins clock now hbegins
  have hbefore := open_of_open_after xs hopen
  rw [channel_start] at hbefore
  have hlive := live_next clock now hbegins hbefore
  have hages := ages_after hlive hstop hopen
  obtain ⟨n, hn⟩ := hages.goOn hlive first hmem (by rw [hsource])
  exact ⟨hages.live hlive, (hages.underWay_eq hlive).trans hcount, first, n, hfirst, hsource, hn⟩

/-- The deliveries of a source never run side by side exactly if, while someone receives, each start that
begins one comes when none is under way. A delivery that is begun comes to those that are under way; if its
source is not stopped and someone receives, it goes on, and all of them can send. Once all have had their
turns, each is ahead of the clock or has found the channel full. -/
theorem single_iff (sources : List Source) (capacity : Nat) (k : Option Topic) (xs : List Event) :
    let p := (fresh sources capacity).after
    ((∀ ys, ys <+: xs → { i | (p ys).CanSend k i }.Subsingleton) ↔
      (fresh sources capacity).Spaced k xs) ∧
    (∀ ys s clock now zs, xs = ys ++ .start s clock now :: zs → s.topic? = k → (p ys).Begins s →
      .stop k ∉ zs → (p xs).channel.closed = false →
        (p xs).underWay k = (p ys).underWay k + 1 ∧ { i | (p xs).CanSend k i } = (p xs).places k ∧
        ∃ first n i, SourceTask.start? s clock now = some first ∧
          (p xs).tasks[i]? = some (first.later n) ∧
          (first.later n).due = first.due + n * first.period ∧ (p xs).CanSend k i) ∧
    ∀ ys now, xs = ys ++ [.settle now] →
      (∀ t ∈ (p xs).idle, now < t.due) ∧ ((p xs).blocked ≠ [] → (p xs).channel.isFull = true) := by
  intro p
  refine ⟨subsingleton_canSend_iff_spaced sources capacity k xs, ?_, ?_⟩
  · rintro ys s clock now zs rfl rfl hbegins hstop hopen
    have hroom := room_of_fresh sources capacity (ys ++ .start s clock now :: zs)
    have happend : p (ys ++ .start s clock now :: zs) = ((p ys).next (.start s clock now)).after zs :=
      after_append _ _ _
    change 0 < (p _).channel.capacity at hroom
    rw [happend] at hroom hopen ⊢
    obtain ⟨hlive, hcount, first, n, hfirst, rfl, hmem⟩ := begun_goes_on clock now hbegins hstop hopen
    obtain ⟨i, hi⟩ := List.getElem?_of_mem hmem
    refine ⟨hcount, Set.ext fun j => ⟨fun ⟨t, ht, hk, _⟩ => ⟨t, ht, hk⟩, fun ⟨t, ht, hk⟩ => ?_⟩,
      first, n, i, hfirst, hi, first.due_later n, ?_⟩
    · exact canSend_of_live hlive hroom ht hk
    · exact canSend_of_live hlive hroom hi (by rw [source_later])
  · rintro ys now rfl
    have hconcat : p (ys ++ [.settle now]) = (p ys).settle now := after_concat _ _ _
    rw [hconcat]
    exact ⟨settle_ahead _ now, settle_full _ now⟩

/-! ## A source started again too soon -/

/-- A source of ten messages a second. -/
def tenHertz : Source where
  topic? := some "/a"
  frequency := 10
  latency := 0
  startDelay := 0
  sample := .cloud "/a" (.ofPoints 0 "lidar" [])

/-- The source is stopped fifty milliseconds after a message and started again ten milliseconds later, long
before the next message is due. -/
def restarted : List Event :=
  [.start tenHertz ⟨0, 0⟩ 0, .settle (50 * nanosPerMilli), .stop (some "/a"),
    .start tenHertz ⟨0, 0⟩ (60 * nanosPerMilli)]

theorem begins_tenHertz (h : p.isRunning (some "/a") = false) : p.Begins tenHertz :=
  ⟨h, by decide +kernel⟩

theorem open_restarted : ((fresh [tenHertz] 4).after (restarted.take 3)).channel.closed = false := by
  refine (closed_next _ (x := .settle (50 * nanosPerMilli)) nofun).trans ?_
  rw [channel_start]
  rfl

/-- The first delivery is still under way when its source is stopped. -/
theorem underWay_restarted :
    ((fresh [tenHertz] 4).after (restarted.take 3)).underWay (some "/a") = 1 := by
  have hbegins : (fresh [tenHertz] 4).Begins tenHertz := begins_tenHertz rfl
  have hstop : Event.stop tenHertz.topic? ∉ [.settle (50 * nanosPerMilli)] := by simp
  obtain ⟨-, hone, -⟩ := begun_goes_on ⟨0, 0⟩ 0 hbegins hstop open_restarted
  exact hone

/-- Two deliveries are under way in the end. -/
theorem single_iff_restarted :
    ((fresh [tenHertz] 4).after restarted).underWay (some "/a") = 2 := by
  obtain ⟨-, hbegun, -⟩ := single_iff [tenHertz] 4 (some "/a") restarted
  obtain ⟨hcount, -⟩ := hbegun (restarted.take 3) tenHertz ⟨0, 0⟩ (60 * nanosPerMilli) [] rfl rfl
    (begins_tenHertz (isRunning_stop _ _)) List.not_mem_nil
    ((congrArg Outbox.closed (channel_start _ _ _ _)).trans open_restarted)
  rw [hcount, underWay_restarted]

/-- Both of them can send. -/
theorem restart_doubles : ¬ ∀ ys, ys <+: restarted →
    { i | ((fresh [tenHertz] 4).after ys).CanSend (some "/a") i }.Subsingleton := by
  rw [subsingleton_canSend_iff_spaced]
  intro hspaced
  have hnone : ((fresh [tenHertz] 4).after (restarted.take 3)).underWay (some "/a") = 0 :=
    hspaced _ tenHertz ⟨0, 0⟩ (60 * nanosPerMilli) (List.prefix_refl _) rfl
      (begins_tenHertz (isRunning_stop _ _)) open_restarted
  exact absurd (underWay_restarted.symm.trans hnone) nofun

end SourcePool

end LidarSync
