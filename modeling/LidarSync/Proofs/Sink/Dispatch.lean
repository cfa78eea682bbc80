import LidarSync.Proofs.Sink.Lane

/-!
# The dispatcher and the workers of its sinks side by side

The dispatcher takes round after round and offers each to one sink after the other. When its input
has ended it closes the queues one by one, waits each time until the worker of that sink has stopped,
and reports what that sink has counted. `Dispatch.next` is one step of the dispatcher or of a worker,
and a list of events is one of their interleavings; an event whose turn it is not changes nothing.

In each phase of the dispatcher it is known of each sink what has been offered to it and whether its
queue is closed (`Dispatch.Holds`). Since nothing else reaches a sink, it is as if the others were not
there (`Dispatch.exists_alone`).
-/

namespace LidarSync

/-- What the dispatcher is about to do. -/
inductive Dispatch.Phase where
  | receiving
  /-- A round is to be offered to the sinks from a number of them on. -/
  | offering (s : SyncedSet) (n : Nat)
  /-- The input has ended, and the queues from a number of them on are to be closed. -/
  | closing (n : Nat)
  /-- The queue of a sink is closed, and its worker has to stop. -/
  | awaiting (n : Nat)

/-- A dispatcher and its sinks. -/
structure Dispatch where
  lanes : List Lane
  now : Instant := 0
  phase : Dispatch.Phase := .receiving
  received : List SyncedSet := []
  report : List (String × SinkTally) := []

namespace Dispatch

/-- What can happen next. -/
inductive Event where
  | pass (nanos : Nat)
  | receive (s : SyncedSet)
  | offer
  | endInput
  | close
  | collect
  | work (n : Nat) (t : Lane.Task)

/-- Whether an event is something that the dispatcher or a worker does by itself. -/
def Event.isOwn : Event → Bool
  | .offer => true
  | .close => true
  | .collect => true
  | .work _ _ => true
  | _ => false

/-- A dispatcher for sinks with names and capacities. -/
def ofSinks (sinks : List (String × Nat)) : Dispatch :=
  { lanes := sinks.map fun (name, capacity) => .ofFeed (.ofCapacity name capacity) }

/-- A round is to be offered to the sinks from a number of them on, unless none is left. -/
def offeringFrom (d : Dispatch) (s : SyncedSet) (n : Nat) : Phase :=
  if n < d.lanes.length then .offering s n else .receiving

/-- One step of the dispatcher or of a worker. -/
def next (d : Dispatch) (x : Event) : Dispatch :=
  match x, d.phase with
  | .pass nanos, _ => { d with now := d.now + nanos }
  | .receive s, .receiving =>
    { d with phase := d.offeringFrom s 0, received := d.received ++ [s] }
  | .offer, .offering s n =>
    { d with
      lanes := d.lanes.modify n (·.next d.now (.offer s))
      phase := d.offeringFrom s (n + 1) }
  | .endInput, .receiving => { d with phase := .closing 0 }
  | .close, .closing n =>
    if n < d.lanes.length then
      { d with lanes := d.lanes.modify n (·.next d.now .close), phase := .awaiting n }
    else d
  | .collect, .awaiting n =>
    match d.lanes[n]? with
    | some l =>
      if l.feed.stopped then
        { d with
          phase := .closing (n + 1)
          report := d.report ++ [(l.feed.name, l.feed.tally)] }
      else d
    | none => d
  | .work n t, _ => { d with lanes := d.lanes.modify n (·.next d.now (.task t)) }
  | _, _ => d

/-- Where an interleaving leads. -/
def after (d : Dispatch) (xs : List Event) : Dispatch := xs.foldl next d

theorem after_concat (d : Dispatch) (xs : List Event) (x : Event) :
    d.after (xs ++ [x]) = (d.after xs).next x := by
  unfold after
  rw [List.foldl_append]
  rfl

theorem after_append (d : Dispatch) (xs ys : List Event) :
    d.after (xs ++ ys) = (d.after xs).after ys := List.foldl_append

/-! ## What is known in each phase -/

namespace Phase

/-- What of the rounds received has been offered to a sink. -/
def offered (p : Phase) (received : List SyncedSet) (i : Nat) : List SyncedSet :=
  match p with
  | .offering _ n => if i < n then received else received.dropLast
  | _ => received

/-- Whether the queue of a sink is closed. -/
def closed (p : Phase) (i : Nat) : Bool :=
  match p with
  | .closing n => i < n
  | .awaiting n => i ≤ n
  | _ => false

/-- How many sinks have been reported. -/
def reported : Phase → Nat
  | .closing n => n
  | .awaiting n => n
  | _ => 0

/-- What is known about a phase itself, for a number of sinks. -/
def Within (p : Phase) (received : List SyncedSet) (sinks : Nat) : Prop :=
  match p with
  | .receiving => True
  | .offering s n => n < sinks ∧ ∃ before, received = before ++ [s]
  | .closing n => n ≤ sinks
  | .awaiting n => n < sinks

end Phase

/-- What is known of the sink with a number. -/
structure Holds (d : Dispatch) (name : String) (capacity : Nat) (i : Nat) (l : Lane) : Prop where
  sound : l.Sound name capacity
  opened : l.Opened name capacity
  offered_eq : l.offered = d.phase.offered d.received i
  closing_eq : l.feed.closing = d.phase.closed i
  reported : i < d.phase.reported →
    l.feed.stopped = true ∧ d.report[i]? = some (l.feed.name, l.feed.tally)

/-- What holds of every interleaving. -/
structure Sound (sinks : List (String × Nat)) (d : Dispatch) : Prop where
  length_eq : d.lanes.length = sinks.length
  lanes : ∀ (i : Nat) l name capacity, d.lanes[i]? = some l → sinks[i]? = some (name, capacity) →
    d.Holds name capacity i l
  within : d.phase.Within d.received d.lanes.length
  report_length : d.report.length = d.phase.reported

variable {sinks : List (String × Nat)} {d : Dispatch}

theorem sound_ofSinks (sinks : List (String × Nat)) : Sound sinks (ofSinks sinks) where
  length_eq := List.length_map _
  lanes := by
    intro i l name capacity hlane hsink
    unfold ofSinks at hlane
    rw [List.getElem?_map, hsink] at hlane
    obtain rfl := Option.some.inj hlane
    exact ⟨.ofCapacity name capacity, rfl, rfl, rfl, nofun⟩
  within := trivial
  report_length := rfl

/-! ## One step -/

/-- All that a step can do. -/
inductive Step (d : Dispatch) : Event → Dispatch → Prop where
  | idle {x : Event} : Step d x d
  | passed (nanos : Nat) : Step d (.pass nanos) { d with now := d.now + nanos }
  | received (s : SyncedSet) (phase : d.phase = .receiving) :
      Step d (.receive s) { d with phase := d.offeringFrom s 0, received := d.received ++ [s] }
  | offered (s : SyncedSet) (n : Nat) (phase : d.phase = .offering s n) :
      Step d .offer { d with
        lanes := d.lanes.modify n (·.next d.now (.offer s))
        phase := d.offeringFrom s (n + 1) }
  | ended (phase : d.phase = .receiving) : Step d .endInput { d with phase := .closing 0 }
  | closed (n : Nat) (phase : d.phase = .closing n) (more : n < d.lanes.length) :
      Step d .close { d with
        lanes := d.lanes.modify n (·.next d.now .close)
        phase := .awaiting n }
  | collected (n : Nat) (l : Lane) (phase : d.phase = .awaiting n) (lane : d.lanes[n]? = some l)
      (stopped : l.feed.stopped = true) :
      Step d .collect { d with
        phase := .closing (n + 1)
        report := d.report ++ [(l.feed.name, l.feed.tally)] }
  | worked (n : Nat) (t : Lane.Task) :
      Step d (.work n t) { d with lanes := d.lanes.modify n (·.next d.now (.task t)) }

theorem next_step (d : Dispatch) (x : Event) : Step d x (d.next x) := by
  unfold next
  split
  · exact .passed _
  · next hphase => exact .received _ hphase
  · next hphase => exact .offered _ _ hphase
  · next hphase => exact .ended hphase
  · next hphase =>
    split
    · next hmore => exact .closed _ hphase hmore
    · exact .idle
  · next hphase =>
    split
    · next l hlane =>
      split
      · next hstopped => exact .collected _ l hphase hlane hstopped
      · exact .idle
    · exact .idle
  · exact .worked _ _
  · exact .idle

theorem received_next (d : Dispatch) {x : Event} (hx : ∀ s, x ≠ .receive s) :
    (d.next x).received = d.received := by
  have hstep := d.next_step x
  generalize d.next x = d' at hstep
  cases hstep with
  | received s phase => exact absurd rfl (hx s)
  | _ => rfl

/-! What an event does when its turn has come. -/

theorem next_receive (hphase : d.phase = .receiving) (s : SyncedSet) :
    d.next (.receive s) =
      { d with phase := d.offeringFrom s 0, received := d.received ++ [s] } := by
  unfold next
  rw [hphase]

theorem next_offer {s : SyncedSet} {n : Nat} (hphase : d.phase = .offering s n) :
    d.next .offer = { d with
      lanes := d.lanes.modify n (·.next d.now (.offer s))
      phase := d.offeringFrom s (n + 1) } := by
  unfold next
  rw [hphase]

theorem next_endInput (hphase : d.phase = .receiving) :
    d.next .endInput = { d with phase := .closing 0 } := by
  unfold next
  rw [hphase]

theorem next_close {n : Nat} (hphase : d.phase = .closing n) (hmore : n < d.lanes.length) :
    d.next .close =
      { d with lanes := d.lanes.modify n (·.next d.now .close), phase := .awaiting n } := by
  unfold next
  rw [hphase]
  exact if_pos hmore

theorem next_collect {n : Nat} {l : Lane} (hphase : d.phase = .awaiting n)
    (hl : d.lanes[n]? = some l) (hstopped : l.feed.stopped = true) :
    d.next .collect = { d with
      phase := .closing (n + 1), report := d.report ++ [(l.feed.name, l.feed.tally)] } := by
  unfold next
  rw [hphase]
  dsimp only
  rw [hl]
  exact if_pos hstopped

theorem next_work (d : Dispatch) (n : Nat) (t : Lane.Task) :
    d.next (.work n t) = { d with lanes := d.lanes.modify n (·.next d.now (.task t)) } := by
  unfold next
  cases d.phase <;> rfl

theorem getElem?_modify_cases {α : Type} {l : List α} {f : α → α} {n i : Nat} {a : α}
    (h : (l.modify n f)[i]? = some a) :
    i ≠ n ∧ l[i]? = some a ∨ i = n ∧ ∃ b, l[n]? = some b ∧ a = f b := by
  by_cases hi : i = n
  · subst hi
    rw [List.getElem?_modify_eq] at h
    obtain ⟨b, hb, rfl⟩ := Option.map_eq_some_iff.1 h
    exact Or.inr ⟨rfl, b, hb, rfl⟩
  · rw [List.getElem?_modify_ne _ _ (Ne.symm hi)] at h
    exact Or.inl ⟨hi, h⟩

theorem offeringFrom_of_lt {s : SyncedSet} {n : Nat} (h : n < d.lanes.length) :
    d.offeringFrom s n = .offering s n := if_pos h

theorem offeringFrom_of_le {s : SyncedSet} {n : Nat} (h : d.lanes.length ≤ n) :
    d.offeringFrom s n = .receiving := if_neg (Nat.not_lt_of_le h)

theorem closed_offeringFrom (d : Dispatch) (s : SyncedSet) (n i : Nat) :
    (d.offeringFrom s n).closed i = false ∧ (d.offeringFrom s n).reported = 0 := by
  unfold offeringFrom
  split
  · exact ⟨rfl, rfl⟩
  · exact ⟨rfl, rfl⟩

/-- What has been offered to a sink there is, once a round is to be offered from a number of them on. -/
theorem offered_offeringFrom {s : SyncedSet} {n i : Nat} (hi : i < d.lanes.length)
    (received : List SyncedSet) :
    (d.offeringFrom s n).offered received i
      = if i < n then received else received.dropLast := by
  unfold offeringFrom
  split
  · rfl
  · next hn =>
    rw [if_pos (by omega)]
    rfl

/-- What a step of the dispatcher leaves alone at a sink. -/
theorem Holds.keep {d' : Dispatch} {name : String} {capacity i : Nat} {l : Lane}
    (h : d.Holds name capacity i l)
    (hoffered : d'.phase.offered d'.received i = d.phase.offered d.received i)
    (hclosed : d'.phase.closed i = d.phase.closed i)
    (hreported : i < d'.phase.reported → i < d.phase.reported)
    (hreport : d'.report = d.report) : d'.Holds name capacity i l where
  sound := h.sound
  opened := h.opened
  offered_eq := h.offered_eq.trans hoffered.symm
  closing_eq := h.closing_eq.trans hclosed.symm
  reported hi := hreport ▸ h.reported (hreported hi)

/-- As long as rounds come in, all queues are open and nothing is reported. -/
theorem Holds.keep_offering {d' : Dispatch} {name : String} {capacity i : Nat} {l : Lane}
    (h : d.Holds name capacity i l) {s : SyncedSet} {n : Nat}
    (hphase : d'.phase = d.offeringFrom s n) (hopen : d.phase.closed i = false)
    (hoffered : d'.phase.offered d'.received i = d.phase.offered d.received i) :
    d'.Holds name capacity i l := by
  obtain ⟨hclosed, hnone⟩ := d.closed_offeringFrom s n i
  rw [← hphase] at hclosed hnone
  have hreported : ¬ i < d'.phase.reported := hnone ▸ Nat.not_lt_zero i
  exact {
    sound := h.sound
    opened := h.opened
    offered_eq := h.offered_eq.trans hoffered.symm
    closing_eq := (h.closing_eq.trans hopen).trans hclosed.symm
    reported := fun hi => absurd hi hreported }

/-! A round is offered only to a queue that is open, and only such a queue is closed. -/

theorem Holds.sending_of_offering {name : String} {capacity i : Nat} {l : Lane}
    (h : d.Holds name capacity i l) {s : SyncedSet} {n : Nat} (hphase : d.phase = .offering s n) :
    l.feed.closing = false := by
  rw [h.closing_eq, hphase]
  rfl

theorem Holds.sending_of_closing {name : String} {capacity i : Nat} {l : Lane}
    (h : d.Holds name capacity i l) (hphase : d.phase = .closing i) : l.feed.closing = false := by
  rw [h.closing_eq, hphase]
  exact decide_eq_false (Nat.lt_irrefl i)

namespace Sound

variable {d' : Dispatch} {x : Event}

theorem receive (h : Sound sinks d) {s : SyncedSet} (hphase : d.phase = .receiving) :
    Sound sinks { d with phase := d.offeringFrom s 0, received := d.received ++ [s] } where
  length_eq := h.length_eq
  lanes := by
    intro i l name capacity hlane hsink
    have hi : i < d.lanes.length := (List.getElem?_eq_some_iff.1 hlane).1
    refine (h.lanes i l name capacity hlane hsink).keep_offering (s := s) (n := 0) rfl ?_ ?_
    · rw [hphase]
      rfl
    · dsimp only
      rw [offered_offeringFrom hi, if_neg (Nat.not_lt_zero i), List.dropLast_concat, hphase]
      rfl
  within := by
    dsimp only
    by_cases hsome : 0 < d.lanes.length
    · rw [offeringFrom_of_lt hsome]
      exact ⟨hsome, d.received, rfl⟩
    · rw [offeringFrom_of_le (Nat.le_of_not_lt hsome)]
      trivial
  report_length := by
    dsimp only
    rw [h.report_length, (d.closed_offeringFrom s 0 0).2, hphase]
    rfl

theorem offer (h : Sound sinks d) {s : SyncedSet} {n : Nat} (hphase : d.phase = .offering s n) :
    Sound sinks { d with
      lanes := d.lanes.modify n (·.next d.now (.offer s))
      phase := d.offeringFrom s (n + 1) } where
  length_eq := (List.length_modify _ _ _).trans h.length_eq
  lanes := by
    intro i l name capacity hlane hsink
    have hi : i < d.lanes.length := by
      rw [← List.length_modify (·.next d.now (.offer s)) d.lanes n]
      exact (List.getElem?_eq_some_iff.1 hlane).1
    have hwithin := h.within
    rw [hphase] at hwithin
    obtain ⟨-, before, hreceived⟩ := hwithin
    rcases getElem?_modify_cases hlane with ⟨hne, hlane⟩ | ⟨rfl, l, hold, rfl⟩
    · refine (h.lanes i l name capacity hlane hsink).keep_offering (s := s) (n := n + 1) rfl ?_ ?_
      · rw [hphase]
        rfl
      · dsimp only
        rw [offered_offeringFrom hi, hphase]
        change _ = if i < n then d.received else d.received.dropLast
        have hsame : i < n + 1 ↔ i < n := by omega
        simp only [hsame]
    · have hlane := h.lanes i l name capacity hold hsink
      have hoffered := hlane.offered_eq
      rw [hphase] at hoffered
      obtain ⟨hnext, hstill, -⟩ :=
        hlane.sound.next_offer (hlane.sending_of_offering hphase) d.now s
      refine ⟨hlane.sound.next _ _, hlane.opened.next _ _, ?_, ?_, ?_⟩
      · dsimp only
        rw [hnext, offered_offeringFrom hi, if_pos (Nat.lt_succ_self i), hoffered]
        change (if i < i then d.received else d.received.dropLast) ++ [s] = d.received
        rw [if_neg (Nat.lt_irrefl i), hreceived, List.dropLast_concat]
      · dsimp only
        rw [hstill, (d.closed_offeringFrom s (i + 1) i).1]
      · dsimp only
        rw [(d.closed_offeringFrom s (i + 1) i).2]
        exact fun hi => absurd hi (Nat.not_lt_zero i)
  within := by
    have hwithin := h.within
    rw [hphase] at hwithin
    dsimp only
    rw [List.length_modify]
    by_cases hmore : n + 1 < d.lanes.length
    · rw [offeringFrom_of_lt hmore]
      exact ⟨hmore, hwithin.2⟩
    · rw [offeringFrom_of_le (Nat.le_of_not_lt hmore)]
      trivial
  report_length := by
    dsimp only
    rw [h.report_length, (d.closed_offeringFrom s (n + 1) 0).2, hphase]
    rfl

theorem endInput (h : Sound sinks d) (hphase : d.phase = .receiving) :
    Sound sinks { d with phase := .closing 0 } where
  length_eq := h.length_eq
  lanes := by
    intro i l name capacity hlane hsink
    refine (h.lanes i l name capacity hlane hsink).keep ?_ ?_ ?_ rfl
    · rw [hphase]
      rfl
    · rw [hphase]
      exact decide_eq_false (Nat.not_lt_zero i)
    · exact fun hi => absurd hi (Nat.not_lt_zero i)
  within := Nat.zero_le _
  report_length := by
    rw [h.report_length, hphase]
    rfl

theorem close (h : Sound sinks d) {n : Nat} (hphase : d.phase = .closing n)
    (hmore : n < d.lanes.length) :
    Sound sinks { d with
      lanes := d.lanes.modify n (·.next d.now .close)
      phase := .awaiting n } where
  length_eq := (List.length_modify _ _ _).trans h.length_eq
  lanes := by
    intro i l name capacity hlane hsink
    rcases getElem?_modify_cases hlane with ⟨hne, hlane⟩ | ⟨rfl, l, hold, rfl⟩
    · refine (h.lanes i l name capacity hlane hsink).keep ?_ ?_ ?_ rfl
      · rw [hphase]
        rfl
      · rw [hphase]
        exact decide_eq_decide.2 (by omega)
      · rw [hphase]
        exact id
    · have hlane := h.lanes i l name capacity hold hsink
      have hoffered := hlane.offered_eq
      rw [hphase] at hoffered
      obtain ⟨hsame, hfeed⟩ := Lane.next_close (hlane.sending_of_closing hphase) d.now
      refine ⟨hlane.sound.next _ _, hlane.opened.next _ _, hsame.trans hoffered, ?_, ?_⟩
      · rw [hfeed]
        exact (decide_eq_true (Nat.le_refl i)).symm
      · exact fun hi => absurd hi (Nat.lt_irrefl i)
  within := by
    change n < (d.lanes.modify n _).length
    rw [List.length_modify]
    exact hmore
  report_length := by
    rw [h.report_length, hphase]
    rfl

theorem collect (h : Sound sinks d) {n : Nat} {l : Lane} (hphase : d.phase = .awaiting n)
    (hl : d.lanes[n]? = some l) (hstopped : l.feed.stopped = true) :
    Sound sinks { d with
      phase := .closing (n + 1)
      report := d.report ++ [(l.feed.name, l.feed.tally)] } where
  length_eq := h.length_eq
  lanes := by
    intro i l' name capacity hlane hsink
    have hold := h.lanes i l' name capacity hlane hsink
    have hlength := h.report_length
    have hoffered := hold.offered_eq
    have hclosing := hold.closing_eq
    rw [hphase] at hlength hoffered hclosing
    refine ⟨hold.sound, hold.opened, hoffered, ?_, fun hi => ?_⟩
    · rw [hclosing]
      exact decide_eq_decide.2 Nat.lt_succ_iff.symm
    · have hi : i < n + 1 := hi
      rcases Nat.lt_or_eq_of_le (Nat.le_of_lt_succ hi) with hlt | rfl
      · obtain ⟨hold, hreport⟩ := hold.reported (by rw [hphase]; exact hlt)
        have hshort : i < d.report.length := (List.getElem?_eq_some_iff.1 hreport).1
        refine ⟨hold, ?_⟩
        dsimp only
        rw [List.getElem?_append_left hshort, hreport]
      · obtain rfl := Option.some.inj (hlane.symm.trans hl)
        refine ⟨hstopped, ?_⟩
        have hlength : d.report.length = i := hlength
        dsimp only
        rw [List.getElem?_append_right (Nat.le_of_eq hlength), hlength, Nat.sub_self]
        rfl
  within := by
    have hwithin := h.within
    rw [hphase] at hwithin
    exact hwithin
  report_length := by
    have hlength := h.report_length
    rw [hphase] at hlength
    dsimp only
    rw [List.length_append, hlength]
    rfl

theorem work (h : Sound sinks d) (n : Nat) (t : Lane.Task) :
    Sound sinks { d with lanes := d.lanes.modify n (·.next d.now (.task t)) } where
  length_eq := (List.length_modify _ _ _).trans h.length_eq
  lanes := by
    intro i l name capacity hlane hsink
    rcases getElem?_modify_cases hlane with ⟨hne, hlane⟩ | ⟨rfl, l, hold, rfl⟩
    · exact { h.lanes i l name capacity hlane hsink with }
    · have hlane := h.lanes i l name capacity hold hsink
      obtain ⟨hoffered, hclosing, -⟩ := Lane.next_task hlane.sound.receiver d.now t
      refine ⟨hlane.sound.next _ _, hlane.opened.next _ _, hoffered.trans hlane.offered_eq,
        hclosing.trans hlane.closing_eq, fun hi => ?_⟩
      obtain ⟨hstopped, hreport⟩ := hlane.reported hi
      rw [hlane.sound.next_of_stopped hstopped]
      exact ⟨hstopped, hreport⟩
  within := by
    dsimp only
    rw [List.length_modify]
    exact h.within
  report_length := h.report_length

/-- Every step keeps what is known. -/
theorem step (h : Sound sinks d) (hstep : Step d x d') : Sound sinks d' := by
  cases hstep with
  | idle => exact h
  | passed nanos =>
    exact { h with
      lanes := fun i l name capacity hlane hsink =>
        { h.lanes i l name capacity hlane hsink with } }
  | received s phase => exact h.receive phase
  | offered s n phase => exact h.offer phase
  | ended phase => exact h.endInput phase
  | closed n phase more => exact h.close phase more
  | collected n l phase lane stopped => exact h.collect phase lane stopped
  | worked n t => exact h.work n t

theorem next (h : Sound sinks d) (x : Event) : Sound sinks (d.next x) := h.step (d.next_step x)

theorem after (h : Sound sinks d) (xs : List Event) : Sound sinks (d.after xs) := by
  induction xs using List.reverseRecOn with
  | nil => exact h
  | append_singleton xs x ih =>
    rw [after_concat]
    exact ih.next x

end Sound

/-! ## What a step does to one sink -/

/-- A sink is left alone, or it is the one that a round is offered to, whose queue is closed, or whose
worker goes on. -/
theorem lane_next {x : Event} {i : Nat} {l l' : Lane} (hl : d.lanes[i]? = some l)
    (hl' : (d.next x).lanes[i]? = some l') :
    l' = l ∨
    (∃ s, x = .offer ∧ d.phase = .offering s i ∧ l' = l.next d.now (.offer s)) ∨
    (x = .close ∧ d.phase = .closing i ∧ l' = l.next d.now .close) ∨
    ∃ t, x = .work i t ∧ l' = l.next d.now (.task t) := by
  have hstep := d.next_step x
  generalize d.next x = d' at hstep hl'
  have hsame : ∀ {m : Lane}, d.lanes[i]? = some m → m = l :=
    fun hm => Option.some.inj (hm.symm.trans hl)
  cases hstep with
  | idle => exact Or.inl (hsame hl')
  | passed nanos => exact Or.inl (hsame hl')
  | received s phase => exact Or.inl (hsame hl')
  | offered s n phase =>
    rcases getElem?_modify_cases hl' with ⟨-, hm⟩ | ⟨rfl, m, hm, rfl⟩
    · exact Or.inl (hsame hm)
    · rw [hsame hm]
      exact Or.inr (Or.inl ⟨s, rfl, phase, rfl⟩)
  | ended phase => exact Or.inl (hsame hl')
  | closed n phase more =>
    rcases getElem?_modify_cases hl' with ⟨-, hm⟩ | ⟨rfl, m, hm, rfl⟩
    · exact Or.inl (hsame hm)
    · rw [hsame hm]
      exact Or.inr (Or.inr (Or.inl ⟨rfl, phase, rfl⟩))
  | collected n m phase lane stopped => exact Or.inl (hsame hl')
  | worked n t =>
    rcases getElem?_modify_cases hl' with ⟨-, hm⟩ | ⟨rfl, m, hm, rfl⟩
    · exact Or.inl (hsame hm)
    · rw [hsame hm]
      exact Or.inr (Or.inr (Or.inr ⟨t, rfl, rfl⟩))

/-! ## Accounts -/

/-- The accounts of the sink with a number: of the rounds that have been offered to it each is written,
failed, dropped, waiting or in the hands of its worker. -/
structure Account (d : Dispatch) (capacity i : Nat) (l : Lane) : Prop where
  offered_eq : l.offered = d.phase.offered d.received i
  balance : l.offered.length = l.feed.tally.written + l.feed.tally.failed + l.feed.tally.dropped
    + l.feed.queue.waiting.length + l.feed.current.toList.length
  fits : l.feed.queue.waiting.length ≤ max capacity 1
  passed_sublist : l.passed.Sublist d.received
  written_sublist : l.written.Sublist l.passed
  written_length : l.written.length = l.feed.tally.written
  dropped_next : ∀ x l', (d.next x).lanes[i]? = some l' →
    l'.feed.tally.dropped = l.feed.tally.dropped ∨
      l.feed.queue.waiting.length = max capacity 1 ∧
        l'.feed.tally.dropped = l.feed.tally.dropped + 1

theorem Phase.offered_sublist (p : Phase) (received : List SyncedSet) (i : Nat) :
    (p.offered received i).Sublist received := by
  unfold offered
  split
  · split
    · exact List.Sublist.refl _
    · exact List.dropLast_sublist _
  · exact List.Sublist.refl _

theorem Sound.account (h : Sound sinks d) {i : Nat} {l : Lane} {name : String} {capacity : Nat}
    (hl : d.lanes[i]? = some l) (hsink : sinks[i]? = some (name, capacity)) :
    d.Account capacity i l := by
  have hlane := h.lanes i l name capacity hl hsink
  refine ⟨hlane.offered_eq, hlane.sound.offered_length, hlane.sound.fits, ?_, l.written_sublist,
    hlane.sound.written_length, fun x l' hl' => ?_⟩
  · refine hlane.sound.passed_sublist.trans ?_
    rw [hlane.offered_eq]
    exact d.phase.offered_sublist d.received i
  · rcases lane_next hl hl' with rfl | ⟨s, -, hphase, rfl⟩ | ⟨-, hphase, rfl⟩ | ⟨t, -, rfl⟩
    · exact Or.inl rfl
    · have hsending := hlane.sending_of_offering hphase
      rcases (hlane.sound.next_offer hsending d.now s).2.2 with ⟨-, -, hsame⟩ | ⟨hfull, -, hmore⟩
      · exact Or.inl hsame
      · exact Or.inr ⟨hfull, hmore⟩
    · left
      rw [(Lane.next_close (hlane.sending_of_closing hphase) d.now).2]
      rfl
    · exact Or.inl (Lane.next_task hlane.sound.receiver d.now t).2.2

/-! ## The report -/

/-- Every sink has been reported. -/
def Finished (d : Dispatch) : Prop := d.phase = .closing d.lanes.length

/-- What is known of each sink at the end. -/
theorem Sound.of_finished (h : Sound sinks d) (hfinished : d.Finished) {i : Nat} {l : Lane}
    {name : String} {capacity : Nat} (hl : d.lanes[i]? = some l)
    (hsink : sinks[i]? = some (name, capacity)) :
    l.feed.name = name ∧ d.report[i]? = some (name, l.feed.tally) ∧ l.offered = d.received ∧
    l.feed.tally.waiting? = some 0 ∧
    l.feed.tally.written + l.feed.tally.failed + l.feed.tally.dropped = d.received.length := by
  have hlane := h.lanes i l name capacity hl hsink
  have hi : i < d.phase.reported := by
    rw [hfinished]
    exact (List.getElem?_eq_some_iff.1 hl).1
  obtain ⟨hstopped, hreport⟩ := hlane.reported hi
  obtain ⟨-, hempty, hfree, hnone⟩ := hlane.sound.rested hstopped
  have hoffered : l.offered = d.received := by
    rw [hlane.offered_eq, hfinished]
    rfl
  have hlength := hlane.sound.offered_length
  rw [hoffered, hempty, hfree] at hlength
  rw [hlane.sound.name_eq] at hreport
  exact ⟨hlane.sound.name_eq, hreport, hoffered, hnone, hlength.symm⟩

theorem Sound.exists_lane (h : Sound sinks d) {i : Nat} (hi : i < sinks.length) :
    ∃ l name capacity, d.lanes[i]? = some l ∧ sinks[i]? = some (name, capacity) :=
  ⟨_, _, _, List.getElem?_eq_getElem (h.length_eq.symm ▸ hi), List.getElem?_eq_getElem hi⟩

/-- The report has the sinks in order, and all rounds that were received for each. -/
theorem Sound.report (h : Sound sinks d) (hfinished : d.Finished) :
    d.report.map Prod.fst = sinks.map Prod.fst ∧
    ∀ e ∈ d.report, e.2.waiting? = some 0 ∧
      e.2.written + e.2.failed + e.2.dropped = d.received.length := by
  have hlength : d.report.length = sinks.length := by
    rw [h.report_length, hfinished, ← h.length_eq]
    rfl
  constructor
  · apply List.ext_getElem?
    intro i
    by_cases hi : i < sinks.length
    · obtain ⟨l, name, capacity, hl, hsink⟩ := h.exists_lane hi
      rw [List.getElem?_map, List.getElem?_map, hsink, (h.of_finished hfinished hl hsink).2.1]
      rfl
    · rw [List.getElem?_eq_none (by rw [List.length_map, hlength]; omega),
        List.getElem?_eq_none (by rw [List.length_map]; omega)]
  · intro e he
    obtain ⟨i, hi, heq⟩ := List.getElem_of_mem he
    obtain ⟨l, name, capacity, hl, hsink⟩ := h.exists_lane (hlength ▸ hi)
    obtain ⟨-, hreport, -, hnone, htotal⟩ := h.of_finished hfinished hl hsink
    have hsome := (List.getElem?_eq_getElem hi).symm.trans hreport
    rw [heq] at hsome
    obtain rfl := Option.some.inj hsome
    exact ⟨hnone, htotal⟩

/-! ## The way to the report -/

/-- The input has ended. -/
def Ended (d : Dispatch) : Prop := ∃ n, d.phase = .closing n ∨ d.phase = .awaiting n

/-- How many steps a dispatcher whose input has ended still has to take, for a number of sinks. -/
def Phase.left (p : Phase) (sinks : Nat) : Nat :=
  match p with
  | .closing n => 2 * (sinks - n)
  | .awaiting n => 2 * (sinks - n) - 1
  | _ => 0

/-- How many steps are left when the input has ended, those of the workers included. -/
def left (d : Dispatch) : Nat := (d.lanes.map Lane.left).sum + d.phase.left d.lanes.length

theorem sum_modify {α : Type} {g : α → Nat} {f : α → α} {l : List α} {n : Nat} {a : α}
    (h : l[n]? = some a) :
    ((l.modify n f).map g).sum + g a = (l.map g).sum + g (f a) := by
  induction l generalizing n with
  | nil => exact absurd h nofun
  | cons b l ih =>
    cases n with
    | zero =>
      obtain rfl := Option.some.inj h
      simp only [List.modify_zero_cons, List.map_cons, List.sum_cons]
      omega
    | succ n =>
      have hsum := ih (n := n) h
      simp only [List.modify_succ_cons, List.map_cons, List.sum_cons]
      omega

theorem modify_eq_of_fixed {α : Type} {f : α → α} {l : List α} {n : Nat}
    (h : ∀ a, l[n]? = some a → f a = a) : l.modify n f = l := by
  apply List.ext_getElem?
  intro i
  by_cases hi : n = i
  · subst hi
    rw [List.getElem?_modify_eq]
    cases hn : l[n]? with
    | none => rfl
    | some a => exact congrArg some (h a hn)
  · exact List.getElem?_modify_ne _ _ hi

/-! Each of the three kinds of steps leaves less to do. -/

theorem left_close (h : Sound sinks d) {n : Nat} (hphase : d.phase = .closing n)
    (hmore : n < d.lanes.length) : (d.next .close).left < d.left := by
  obtain ⟨l, name, capacity, hl, hsink⟩ := h.exists_lane (h.length_eq ▸ hmore)
  have hsending := (h.lanes n l name capacity hl hsink).sending_of_closing hphase
  have hsame : (l.next d.now .close).left = l.left := by
    unfold Lane.left
    rw [(Lane.next_close hsending d.now).2]
    rfl
  have hsum := sum_modify (g := Lane.left) (f := (·.next d.now .close)) hl
  rw [next_close hphase hmore]
  unfold left
  rw [hphase]
  dsimp only [Phase.left]
  rw [List.length_modify]
  omega

theorem left_collect {n : Nat} {l : Lane} (hphase : d.phase = .awaiting n)
    (hl : d.lanes[n]? = some l) (hstopped : l.feed.stopped = true) :
    (d.next .collect).left < d.left := by
  have hmore : n < d.lanes.length := (List.getElem?_eq_some_iff.1 hl).1
  rw [next_collect hphase hl hstopped]
  unfold left
  rw [hphase]
  dsimp only [Phase.left]
  omega

theorem left_work {n : Nat} {l : Lane} (hl : d.lanes[n]? = some l) {t : Lane.Task}
    (hless : (l.next d.now (.task t)).left < l.left) : (d.next (.work n t)).left < d.left := by
  have hsum := sum_modify (g := Lane.left) (f := (·.next d.now (.task t))) hl
  rw [next_work]
  unfold left
  dsimp only
  rw [List.length_modify]
  omega

/-- A worker whose turn it is not changes nothing. -/
theorem left_next_work (h : Sound sinks d) (n : Nat) {t : Lane.Task} (ht : ∀ k, t ≠ .note k) :
    d.next (.work n t) = d ∨ (d.next (.work n t)).left < d.left := by
  cases hl : d.lanes[n]? with
  | none =>
    left
    rw [next_work, modify_eq_of_fixed (fun a ha => absurd (hl.symm.trans ha) nofun)]
  | some l =>
    obtain ⟨l', name, capacity, hl', hsink⟩ :=
      h.exists_lane (h.length_eq ▸ (List.getElem?_eq_some_iff.1 hl).1)
    obtain rfl := Option.some.inj (hl.symm.trans hl')
    have hopen := (h.lanes n l name capacity hl hsink).sound.receiver
    rcases Lane.left_next hopen d.now ht with hsame | hless
    · left
      rw [next_work, modify_eq_of_fixed]
      rintro a ha
      obtain rfl := Option.some.inj (hl.symm.trans ha)
      exact hsame
    · exact Or.inr (left_work hl hless)

/-- Whatever happens after the end of the input, except that time passes or something is noted, leaves
less to do, or it changes nothing. -/
theorem left_next (h : Sound sinks d) (hended : d.Ended) {x : Event}
    (hpass : ∀ nanos, x ≠ .pass nanos) (hnote : ∀ n k, x ≠ .work n (.note k)) :
    d.next x = d ∨ (d.next x).left < d.left := by
  cases x with
  | pass nanos => exact absurd rfl (hpass nanos)
  | receive _ | offer | endInput =>
    left
    obtain ⟨n, hphase | hphase⟩ := hended <;> (unfold next; rw [hphase])
  | close =>
    obtain ⟨n, hphase | hphase⟩ := hended
    · by_cases hmore : n < d.lanes.length
      · exact Or.inr (left_close h hphase hmore)
      · left
        unfold next
        rw [hphase]
        exact if_neg hmore
    · left
      unfold next
      rw [hphase]
  | collect =>
    obtain ⟨n, hphase | hphase⟩ := hended
    · left
      unfold next
      rw [hphase]
    · cases hl : d.lanes[n]? with
      | none =>
        left
        unfold next
        rw [hphase]
        dsimp only
        rw [hl]
      | some l =>
        by_cases hstopped : l.feed.stopped = true
        · exact Or.inr (left_collect hphase hl hstopped)
        · left
          unfold next
          rw [hphase]
          dsimp only
          rw [hl]
          exact if_neg hstopped
  | work n t => exact left_next_work h n fun k heq => hnote n k (heq ▸ rfl)

/-- As long as something is left to report, the dispatcher or a worker has a turn. -/
theorem exists_left_lt (h : Sound sinks d) (hended : d.Ended) (hmore : ¬ d.Finished) :
    ∃ x, x.isOwn = true ∧ (d.next x).left < d.left := by
  have hwithin := h.within
  obtain ⟨n, hphase | hphase⟩ := hended
  · rw [hphase] at hwithin
    have hwithin : n ≤ d.lanes.length := hwithin
    have hne : n ≠ d.lanes.length := by
      rintro rfl
      exact hmore hphase
    exact ⟨.close, rfl, left_close h hphase (by omega)⟩
  · rw [hphase] at hwithin
    obtain ⟨l, name, capacity, hl, hsink⟩ := h.exists_lane (h.length_eq ▸ hwithin)
    have hlane := h.lanes n l name capacity hl hsink
    have hclosing : l.feed.closing = true := by
      rw [hlane.closing_eq, hphase]
      exact decide_eq_true (Nat.le_refl n)
    by_cases hstopped : l.feed.stopped = true
    · exact ⟨.collect, rfl, left_collect hphase hl hstopped⟩
    · obtain ⟨t, -, hless⟩ := Lane.exists_left_next_lt hlane.sound.receiver hclosing
        (eq_false_of_ne_true hstopped) d.now
      exact ⟨.work n t, rfl, left_work hl hless⟩

theorem Ended.next (hended : d.Ended) (x : Event) : (d.next x).Ended := by
  have hstep := d.next_step x
  generalize d.next x = d' at hstep
  cases hstep with
  | idle => exact hended
  | passed nanos => exact hended
  | received s phase =>
    obtain ⟨n, hphase | hphase⟩ := hended <;> exact absurd (phase.symm.trans hphase) nofun
  | offered s n phase =>
    obtain ⟨n, hphase | hphase⟩ := hended <;> exact absurd (phase.symm.trans hphase) nofun
  | ended phase => exact ⟨0, Or.inl rfl⟩
  | closed n phase more => exact ⟨n, Or.inr rfl⟩
  | collected n l phase lane stopped => exact ⟨n + 1, Or.inl rfl⟩
  | worked n t => exact hended

theorem Ended.of_next {x : Event} (hx : x ≠ .endInput) (hended : (d.next x).Ended) : d.Ended := by
  have hstep := d.next_step x
  generalize d.next x = d' at hstep hended
  obtain ⟨m, hphase⟩ := hended
  cases hstep with
  | idle => exact ⟨m, hphase⟩
  | passed nanos => exact ⟨m, hphase⟩
  | received s phase =>
    exfalso
    dsimp only at hphase
    unfold offeringFrom at hphase
    split at hphase <;> exact hphase.elim nofun nofun
  | offered s n phase =>
    exfalso
    dsimp only at hphase
    unfold offeringFrom at hphase
    split at hphase <;> exact hphase.elim nofun nofun
  | ended phase => exact absurd rfl hx
  | closed n phase more => exact ⟨n, Or.inl phase⟩
  | collected n l phase lane stopped => exact ⟨n, Or.inr phase⟩
  | worked n t => exact ⟨m, hphase⟩

/-- The report can always be finished once the input has ended. -/
theorem exists_finished (h : Sound sinks d) (hended : d.Ended) :
    ∃ ys, (∀ y ∈ ys, y.isOwn = true) ∧ (d.after ys).Finished := by
  induction hleft : d.left using Nat.strong_induction_on generalizing d with
  | _ k ih =>
    by_cases hfinished : d.Finished
    · exact ⟨[], nofun, hfinished⟩
    · obtain ⟨x, hown, hless⟩ := exists_left_lt h hended hfinished
      obtain ⟨ys, hown', hys⟩ := ih _ (hleft ▸ hless) (h.next x) (hended.next x) rfl
      exact ⟨x :: ys, List.forall_mem_cons.2 ⟨hown, hown'⟩, hys⟩

/-! ## One sink on its own -/

/-- A dispatcher of one sink, to which the same has happened at the same times. -/
structure Alone (d : Dispatch) (l : Lane) (e : Dispatch) : Prop where
  lanes_eq : e.lanes = [l]
  now_eq : e.now = d.now
  receiving : l.feed.closing = false → e.phase = .receiving

variable {e : Dispatch} {i : Nat} {l l' : Lane} {name : String} {capacity : Nat}

theorem now_next (d : Dispatch) (x : Event) :
    (d.next x).now = d.now ∨ ∃ nanos, x = .pass nanos ∧ d.next x = { d with now := d.now + nanos } := by
  have hstep := d.next_step x
  generalize d.next x = d' at hstep
  cases hstep with
  | passed nanos => exact Or.inr ⟨nanos, rfl, rfl⟩
  | _ => exact Or.inl rfl

/-! What happens to the sink takes place when it is alone, too. -/

theorem after_offer_of_one (hlanes : e.lanes = [l]) (hphase : e.phase = .receiving) (s : SyncedSet) :
    (e.after [.receive s, .offer]).lanes = [l.next e.now (.offer s)] ∧
    (e.after [.receive s, .offer]).now = e.now ∧
    (e.after [.receive s, .offer]).phase = .receiving := by
  obtain ⟨lanes, now, phase, received, report⟩ := e
  dsimp only at hlanes hphase
  subst hlanes hphase
  exact ⟨rfl, rfl, rfl⟩

theorem after_close_of_one (hlanes : e.lanes = [l]) (hphase : e.phase = .receiving) :
    (e.after [.endInput, .close]).lanes = [l.next e.now .close] ∧
    (e.after [.endInput, .close]).now = e.now := by
  obtain ⟨lanes, now, phase, received, report⟩ := e
  dsimp only at hlanes hphase
  subst hlanes hphase
  exact ⟨rfl, rfl⟩

theorem Alone.next (ha : Alone d l e) (h : Sound sinks d) (hl : d.lanes[i]? = some l)
    (hsink : sinks[i]? = some (name, capacity)) {x : Event} (hl' : (d.next x).lanes[i]? = some l') :
    ∃ ys, Alone (d.next x) l' (e.after ys) := by
  have hlane := h.lanes i l name capacity hl hsink
  rcases d.now_next x with hnow | ⟨nanos, rfl, heq⟩
  · rcases lane_next hl hl' with rfl | ⟨s, -, hphase, rfl⟩ | ⟨-, hphase, rfl⟩ | ⟨t, -, rfl⟩
    · exact ⟨[], ha.lanes_eq, ha.now_eq.trans hnow.symm, ha.receiving⟩
    · have hphase' := ha.receiving (hlane.sending_of_offering hphase)
      obtain ⟨hlanes, hnow', hreceiving⟩ := after_offer_of_one ha.lanes_eq hphase' s
      rw [ha.now_eq] at hlanes hnow'
      exact ⟨_, hlanes, hnow'.trans hnow.symm, fun _ => hreceiving⟩
    · have hopen := hlane.sending_of_closing hphase
      obtain ⟨hlanes, hnow'⟩ := after_close_of_one ha.lanes_eq (ha.receiving hopen)
      rw [ha.now_eq] at hlanes hnow'
      refine ⟨_, hlanes, hnow'.trans hnow.symm, fun hstill => ?_⟩
      rw [(Lane.next_close hopen d.now).2] at hstill
      exact absurd hstill nofun
    · refine ⟨[.work 0 t], ?_, ?_, fun hstill => ?_⟩
      · change (e.next (.work 0 t)).lanes = _
        rw [next_work, ha.lanes_eq, ha.now_eq]
        rfl
      · change (e.next (.work 0 t)).now = _
        rw [next_work]
        exact ha.now_eq.trans hnow.symm
      · change (e.next (.work 0 t)).phase = _
        rw [next_work]
        rw [(Lane.next_task hlane.sound.receiver d.now t).2.1] at hstill
        exact ha.receiving hstill
  · rw [heq] at hl' ⊢
    obtain rfl := Option.some.inj (hl.symm.trans hl')
    refine ⟨[.pass nanos], ?_⟩
    have hpass : e.after [.pass nanos] = { e with now := e.now + nanos } := by
      change e.next (.pass nanos) = _
      unfold next
      cases e.phase <;> rfl
    rw [hpass]
    exact ⟨ha.lanes_eq, congrArg (· + nanos) ha.now_eq, ha.receiving⟩

/-- Whatever happens to a sink among others can happen to it at the same times when it is the only
one. -/
theorem exists_alone (hsink : sinks[i]? = some (name, capacity)) {xs : List Event}
    (hl : ((ofSinks sinks).after xs).lanes[i]? = some l) :
    ∃ ys, Alone ((ofSinks sinks).after xs) l ((ofSinks [(name, capacity)]).after ys) := by
  induction xs using List.reverseRecOn generalizing l with
  | nil =>
    change ((ofSinks sinks).lanes)[i]? = some l at hl
    unfold ofSinks at hl
    rw [List.getElem?_map, hsink] at hl
    obtain rfl := Option.some.inj hl
    exact ⟨[], rfl, rfl, fun _ => rfl⟩
  | append_singleton xs x ih =>
    have h : Sound sinks ((ofSinks sinks).after xs) := (sound_ofSinks sinks).after xs
    have hi : i < sinks.length := (List.getElem?_eq_some_iff.1 hsink).1
    obtain ⟨l₀, -, -, hl₀, -⟩ := h.exists_lane hi
    obtain ⟨ys, hys⟩ := ih hl₀
    rw [after_concat] at hl ⊢
    obtain ⟨zs, hzs⟩ := hys.next h hl₀ hsink hl
    refine ⟨ys ++ zs, ?_⟩
    rw [after_append]
    exact hzs

/-- Whatever the interleaving, each round that was offered to a sink is written, failed, dropped,
waiting or in the hands of its worker. What the worker passes on is in order and each round once, and a
round is dropped only when the queue is full. The report has the sinks in order, with nothing waiting
and all rounds that were received. Once the input has ended it can always be finished, and whatever
happens to the queues and the workers brings it nearer. To a sink it is all the same whether there are
others: what happened to it can happen at the same times when it is the only one, and among any other
sinks the same comes of it. -/
theorem sinks_accounted (sinks : List (String × Nat)) (xs : List Event) :
    let d := (ofSinks sinks).after xs
    d.lanes.length = sinks.length ∧
    (∀ (i : Nat) l name capacity, d.lanes[i]? = some l → sinks[i]? = some (name, capacity) →
      d.Account capacity i l ∧
      (∃ ys, Alone d l ((ofSinks [(name, capacity)]).after ys)) ∧
      ∀ (others : List (String × Nat)) ys (j : Nat) l', others[j]? = some (name, capacity) →
        ((ofSinks others).after ys).lanes[j]? = some l' → l'.schedule = l.schedule → l' = l) ∧
    (d.Finished → d.report.map Prod.fst = sinks.map Prod.fst ∧
      ∀ e ∈ d.report, e.2.waiting? = some 0 ∧
        e.2.written + e.2.failed + e.2.dropped = d.received.length) ∧
    (d.Ended → (∃ ys, (∀ y ∈ ys, y.isOwn = true) ∧ (d.after ys).Finished) ∧
      (¬ d.Finished → ∃ x, x.isOwn = true ∧ (d.next x).left < d.left) ∧
      ∀ x, (∀ nanos, x ≠ .pass nanos) → (∀ n k, x ≠ .work n (.note k)) →
        d.next x = d ∨ (d.next x).left < d.left) := by
  intro d
  have h : Sound sinks d := (sound_ofSinks sinks).after xs
  refine ⟨h.length_eq, ?_, h.report, fun hended => ?_⟩
  · intro i l name capacity hl hsink
    refine ⟨h.account hl hsink, exists_alone hsink hl, ?_⟩
    intro others ys j l' hother hl' hschedule
    have hopened := (h.lanes i l name capacity hl hsink).opened
    have hopened' := (((sound_ofSinks others).after ys).lanes j l' name capacity hl' hother).opened
    -- both are what the one schedule makes of a new queue
    unfold Lane.Opened at hopened hopened'
    rw [← hopened', hschedule, hopened]
  · exact ⟨exists_finished h hended, exists_left_lt h hended, fun x => left_next h hended⟩

/-- A sink with room for one round misses the second of three and cannot write the third. -/
example (a b c : SyncedSet) :
    ((ofSinks [("disk", 1), ("log", 4)]).after
      [.receive a, .offer, .offer, .receive b, .offer, .offer, .work 0 .take, .work 0 (.finish true),
        .receive c, .offer, .offer, .endInput, .close, .work 0 .take, .work 0 (.finish false),
        .work 0 .stop, .collect, .close, .work 1 .take, .work 1 (.finish true), .work 1 .take,
        .work 1 (.finish true), .work 1 .take, .work 1 (.finish true), .work 1 .stop,
        .collect]).report =
      [("disk", { written := 1, failed := 1, dropped := 1, waiting? := some 0 }),
        ("log", { written := 3, waiting? := some 0 })] := by cbv

end Dispatch

end LidarSync
