import LidarSync.Proofs.Outbox
import LidarSync.Proofs.Round.Likeness
import LidarSync.Proofs.Round.Lost

/-!
# Sets that find no room

A consumer takes sets off the output queue whenever it likes. Each set that is built is numbered and
then queued or, when the queue is full, dropped and counted; so the sets received, those that wait and
those dropped add up to the rounds (`Consumption.Ledger`). None of this comes back to the rounds:
with any other consumer and a queue of any other length, the same becomes of them
(`Interplay.level_after`).
-/

namespace LidarSync

/-- The sets that turns built, in the order in which they were. -/
def publishedIn (turns : Turns) : List SyncedSet := (turns.filterMap (·.2.set?)).reverse

theorem publishedIn_cons (now : Instant) (turn : Turn) (turns : Turns) :
    publishedIn ((now, turn) :: turns) = publishedIn turns ++ turn.set?.toList := by
  unfold publishedIn
  cases h : turn.set? with
  | none => simp [h]
  | some set => simp [h]

/-- An interleaving, and what the consumer has received so far. -/
structure Consumption where
  interplay : Interplay
  received : List SyncedSet := []

namespace Consumption

open Interplay (Event)

/-- The set that the consumer receives in a step. -/
def handed (w : Interplay) : Event → Option SyncedSet
  | .aside .receive => w.engine.output.receive.1
  | _ => none

def next (k : Consumption) (x : Event) : Consumption :=
  ⟨k.interplay.next x, k.received ++ (handed k.interplay x).toList⟩

def ofTransformer (s : SyncSettings) (m : Transformer ReprojectFault) (halving : Halving Float) :
    Consumption := ⟨.ofTransformer s m halving, []⟩

/-- Where an interleaving leads. -/
def after (k : Consumption) (xs : List Event) : Consumption := xs.foldl next k

theorem after_concat (k : Consumption) (xs : List Event) (x : Event) :
    k.after (xs ++ [x]) = (k.after xs).next x := by
  unfold after
  rw [List.foldl_append]
  rfl

theorem interplay_after (k : Consumption) (xs : List Event) :
    (k.after xs).interplay = k.interplay.after xs := by
  induction xs using List.reverseRecOn with
  | nil => rfl
  | append_singleton xs x ih =>
    rw [after_concat, Interplay.after_concat, ← ih]
    rfl

/-! ## One step -/

/-- All that a step can do to the output. -/
inductive Step (k : Consumption) : Event → Consumption → Prop where
  /-- Nothing is built and nothing is received. -/
  | quiet {x : Event} {w : Interplay} (turns : w.turns = k.interplay.turns)
      (rounds : w.engine.rounds = k.interplay.engine.rounds)
      (output : w.engine.output = k.interplay.engine.output)
      (drops : w.engine.drops = k.interplay.engine.drops) : Step k x ⟨w, k.received⟩
  /-- The consumer looks for a set. -/
  | received {w : Interplay} (turns : w.turns = k.interplay.turns)
      (rounds : w.engine.rounds = k.interplay.engine.rounds)
      (output : w.engine.output = k.interplay.engine.output.receive.2)
      (drops : w.engine.drops = k.interplay.engine.drops) :
      Step k (.aside .receive) ⟨w, k.received ++ k.interplay.engine.output.receive.1.toList⟩
  /-- The consumer goes away. -/
  | left {w : Interplay} (turns : w.turns = k.interplay.turns)
      (rounds : w.engine.rounds = k.interplay.engine.rounds)
      (drops : w.engine.drops = k.interplay.engine.drops) :
      Step k (.aside .dropReceiver) ⟨w, k.received⟩
  /-- There is a turn of the round. -/
  | turned {x : Event} {w : Interplay} {now : Instant} {turn : Turn}
      (turns : w.turns = (now, turn) :: k.interplay.turns)
      (sends : k.interplay.engine.Sends turn w.engine) : Step k x ⟨w, k.received⟩

/-- Of all that is asked beside the rounds, only what the consumer asks does anything to the output. -/
theorem aside_step (k : Consumption) (y : Engine.Aside) : Step k (.aside y) (k.next (.aside y)) := by
  obtain ⟨w, received⟩ := k
  obtain ⟨r, haside, hdrops⟩ := w.engine.aside_eq y
  have hengine : (w.next (.aside y)).engine = w.engine.aside y := rfl
  rw [haside] at hengine
  have hrounds : (w.next (.aside y)).engine.rounds = w.engine.rounds := by rw [hengine]
  have houtput : (w.next (.aside y)).engine.output = y.output w.engine.output := by rw [hengine]
  have hdropped : (w.next (.aside y)).engine.drops = w.engine.drops := by
    rw [hengine]
    exact hdrops
  have hsilent : next ⟨w, received⟩ (.aside y)
      = ⟨w.next (.aside y), received ++ (handed w (.aside y)).toList⟩ := rfl
  rw [hsilent]
  cases y with
  | receive => exact .received rfl hrounds houtput hdropped
  | dropReceiver =>
    unfold handed
    rw [Option.toList_none, List.append_nil]
    exact .left rfl hrounds hdropped
  | velocity v =>
    unfold handed
    rw [Option.toList_none, List.append_nil]
    exact .quiet rfl hrounds houtput hdropped
  | compensate start stop =>
    unfold handed
    rw [Option.toList_none, List.append_nil]
    exact .quiet rfl hrounds houtput hdropped

theorem next_step (k : Consumption) (x : Event) : Step k x (k.next x) := by
  by_cases hx : ∃ y, x = .aside y
  · obtain ⟨y, rfl⟩ := hx
    exact k.aside_step y
  · obtain ⟨w, received⟩ := k
    have hnone : handed w x = none := by
      cases x with
      | aside y => exact absurd ⟨y, rfl⟩ hx
      | _ => rfl
    have hnext : next ⟨w, received⟩ x = ⟨w.next x, received⟩ := by
      unfold next
      rw [hnone, Option.toList_none, List.append_nil]
    rw [hnext]
    rcases w.next_cases x with ⟨hturns, hengine | ⟨y, hy, -⟩ | hengine⟩ |
      ⟨t, c, rfl, heq⟩ | ⟨start, rfl, -, hguard, heq⟩
    · exact .quiet hturns (by rw [hengine]) (by rw [hengine]) (by rw [hengine])
    · exact absurd ⟨y, hy⟩ hx
    · exact .quiet hturns (by rw [hengine]) (by rw [hengine]) (by rw [hengine]; rfl)
    · rw [heq]
      exact .turned rfl (w.engine.cloud_sends w.now t c)
    · obtain ⟨hengine, hturns⟩ := Interplay.attempt_of_free hguard start
      rw [heq]
      refine .turned hturns ?_
      rw [hengine]
      exact w.engine.fire_sends start

/-! ## The accounts -/

/-- The accounts of a run whose consumer has not gone away. -/
structure Ledger (s : SyncSettings) (k : Consumption) : Prop where
  capacity_eq : k.interplay.engine.output.capacity = max s.queueSize 1
  receiver : k.interplay.engine.output.closed = false
  ids : (publishedIn k.interplay.turns).map SyncedSet.roundId
    = List.range k.interplay.engine.rounds
  order : (k.received ++ k.interplay.engine.output.waiting).Sublist (publishedIn k.interplay.turns)
  balance : k.interplay.engine.rounds = k.received.length
    + k.interplay.engine.output.waiting.length + k.interplay.engine.drops
  fits : k.interplay.engine.output.waiting.length ≤ k.interplay.engine.output.capacity

namespace Ledger

variable {s : SyncSettings} {m : Transformer ReprojectFault} {k : Consumption}

theorem ofTransformer (s : SyncSettings) (m : Transformer ReprojectFault) (halving : Halving Float) :
    Ledger s (ofTransformer s m halving) where
  capacity_eq := rfl
  receiver := rfl
  ids := rfl
  order := List.Sublist.refl []
  balance := rfl
  fits := Nat.zero_le _

theorem quiet (h : Ledger s k) {w : Interplay} (hturns : w.turns = k.interplay.turns)
    (hrounds : w.engine.rounds = k.interplay.engine.rounds)
    (houtput : w.engine.output = k.interplay.engine.output)
    (hdrops : w.engine.drops = k.interplay.engine.drops) : Ledger s ⟨w, k.received⟩ := by
  obtain ⟨hcapacity, hreceiver, hids, horder, hbalance, hfits⟩ := h
  constructor <;> simp only [hturns, hrounds, houtput, hdrops] <;> assumption

theorem receive (h : Ledger s k) {w : Interplay} (hturns : w.turns = k.interplay.turns)
    (hrounds : w.engine.rounds = k.interplay.engine.rounds)
    (houtput : w.engine.output = k.interplay.engine.output.receive.2)
    (hdrops : w.engine.drops = k.interplay.engine.drops) :
    Ledger s ⟨w, k.received ++ k.interplay.engine.output.receive.1.toList⟩ := by
  have hsplit := k.interplay.engine.output.receive_split
  have hlength := congrArg List.length hsplit
  rw [List.length_append] at hlength
  have hbalance := h.balance
  have hfits := h.fits
  constructor
  · rw [houtput]
    exact h.capacity_eq
  · rw [houtput]
    exact h.receiver
  · rw [hturns, hrounds]
    exact h.ids
  · rw [hturns, houtput, List.append_assoc, hsplit]
    exact h.order
  · rw [hrounds, houtput, hdrops, List.length_append]
    omega
  · rw [houtput]
    change _ ≤ k.interplay.engine.output.capacity
    omega

/-- The sets that wait are from earlier rounds. -/
theorem roundId_lt (h : Ledger s k) {set : SyncedSet}
    (hset : set ∈ k.interplay.engine.output.waiting) :
    set.roundId < k.interplay.engine.rounds := by
  have hpublished := h.order.subset (List.mem_append_right k.received hset)
  have hid := List.mem_map_of_mem (f := SyncedSet.roundId) hpublished
  rw [h.ids] at hid
  exact List.mem_range.1 hid

/-- A set that is built finds room, or the queue is full of older sets and it is dropped. -/
theorem offered (h : Ledger s k) {w : Interplay} {now : Instant} {turn : Turn} {set : SyncedSet}
    (hturns : w.turns = (now, turn) :: k.interplay.turns)
    (hsends : k.interplay.engine.Sends turn w.engine) (hset : turn.set? = some set) :
    publishedIn w.turns = publishedIn k.interplay.turns ++ [set] ∧
    set.roundId = k.interplay.engine.rounds ∧
    w.engine.rounds = k.interplay.engine.rounds + 1 ∧
    (k.interplay.engine.output.waiting.length < max s.queueSize 1 ∧
      w.engine.output = { k.interplay.engine.output with
        waiting := k.interplay.engine.output.waiting ++ [set] } ∧
      w.engine.drops = k.interplay.engine.drops ∨
    k.interplay.engine.output.waiting.length = max s.queueSize 1 ∧
      w.engine.output = k.interplay.engine.output ∧
      w.engine.drops = k.interplay.engine.drops + 1) := by
  cases hsends with
  | quiet built rounds output drops =>
    rw [built] at hset
    exact absurd hset nofun
  | built built id rounds output drops =>
    rw [built] at hset
    cases hset
    have hpublished : publishedIn w.turns = publishedIn k.interplay.turns ++ [set] := by
      rw [hturns, publishedIn_cons, built]
      rfl
    refine ⟨hpublished, id, rounds, ?_⟩
    have hfits := h.fits
    rw [h.capacity_eq] at hfits
    rcases Outbox.send_of_open h.receiver set with ⟨hroom, hsend⟩ | ⟨hfull, hsend⟩
    · rw [h.capacity_eq] at hroom
      rw [hsend] at output drops
      exact Or.inl ⟨hroom, output, drops⟩
    · rw [h.capacity_eq] at hfull
      rw [hsend] at output drops
      exact Or.inr ⟨Nat.le_antisymm hfits hfull, output, drops⟩

theorem turned (h : Ledger s k) {w : Interplay} {now : Instant} {turn : Turn}
    (hturns : w.turns = (now, turn) :: k.interplay.turns)
    (hsends : k.interplay.engine.Sends turn w.engine) : Ledger s ⟨w, k.received⟩ := by
  cases hset : turn.set? with
  | none =>
    have hpublished : publishedIn w.turns = publishedIn k.interplay.turns := by
      rw [hturns, publishedIn_cons, hset, Option.toList_none, List.append_nil]
    cases hsends with
    | quiet built rounds output drops =>
      obtain ⟨hcapacity, hreceiver, hids, horder, hbalance, hfits⟩ := h
      constructor <;> simp only [hpublished, rounds, output, drops] <;> assumption
    | built built id rounds output drops =>
      rw [built] at hset
      exact absurd hset nofun
  | some set =>
    obtain ⟨hpublished, hid, hrounds, hqueue⟩ := h.offered hturns hsends hset
    have hbalance := h.balance
    have hcapacity := h.capacity_eq
    have hids : (publishedIn w.turns).map SyncedSet.roundId = List.range w.engine.rounds := by
      rw [hpublished, hrounds, List.map_append, h.ids, List.range_succ, List.map_singleton, hid]
    rcases hqueue with ⟨hroom, houtput, hdrops⟩ | ⟨hfull, houtput, hdrops⟩
    · constructor
      · rw [houtput]
        exact h.capacity_eq
      · rw [houtput]
        exact h.receiver
      · exact hids
      · rw [houtput, hpublished, ← List.append_assoc]
        exact h.order.append (List.Sublist.refl [set])
      · rw [houtput, hdrops, hrounds, List.length_append, List.length_singleton]
        dsimp only
        omega
      · rw [houtput, List.length_append, List.length_singleton]
        change _ ≤ k.interplay.engine.output.capacity
        omega
    · constructor
      · rw [houtput]
        exact h.capacity_eq
      · rw [houtput]
        exact h.receiver
      · exact hids
      · rw [houtput, hpublished]
        exact h.order.trans (List.sublist_append_left _ _)
      · rw [houtput, hdrops, hrounds]
        dsimp only
        omega
      · rw [houtput]
        exact h.fits

/-- A step builds no set and drops none, or it builds one that finds room, or it drops the one that it
builds because the queue is full of older ones. -/
theorem offered_or_quiet (h : Ledger s k) (x : Event) :
    (publishedIn (k.next x).interplay.turns = publishedIn k.interplay.turns ∧
      (k.next x).interplay.engine.drops = k.interplay.engine.drops) ∨
    ∃ set, publishedIn (k.next x).interplay.turns = publishedIn k.interplay.turns ++ [set] ∧
      (k.interplay.engine.output.waiting.length < max s.queueSize 1 ∧
        (k.next x).interplay.engine.output.waiting
          = k.interplay.engine.output.waiting ++ [set] ∧
        (k.next x).interplay.engine.drops = k.interplay.engine.drops ∨
      k.interplay.engine.output.waiting.length = max s.queueSize 1 ∧
        (∀ older ∈ k.interplay.engine.output.waiting, older.roundId < set.roundId) ∧
        (k.next x).interplay.engine.output.waiting = k.interplay.engine.output.waiting ∧
        (k.next x).interplay.engine.drops = k.interplay.engine.drops + 1) := by
  have hstep := k.next_step x
  generalize k.next x = k' at hstep ⊢
  cases hstep with
  | quiet turns rounds output drops => exact Or.inl ⟨congrArg publishedIn turns, drops⟩
  | received turns rounds output drops => exact Or.inl ⟨congrArg publishedIn turns, drops⟩
  | left turns rounds drops => exact Or.inl ⟨congrArg publishedIn turns, drops⟩
  | @turned _ w now turn turns sends =>
    cases hset : turn.set? with
    | none =>
      cases sends with
      | quiet built rounds output drops =>
        refine Or.inl ⟨?_, drops⟩
        rw [turns, publishedIn_cons, hset, Option.toList_none, List.append_nil]
      | built built id rounds output drops =>
        rw [built] at hset
        exact absurd hset nofun
    | some set =>
      obtain ⟨hpublished, hid, -, hqueue⟩ := h.offered turns sends hset
      refine Or.inr ⟨set, hpublished, ?_⟩
      rcases hqueue with ⟨hroom, houtput, hdrops⟩ | ⟨hfull, houtput, hdrops⟩
      · exact Or.inl ⟨hroom, congrArg Outbox.waiting houtput, hdrops⟩
      · refine Or.inr ⟨hfull, fun older holder => ?_, congrArg Outbox.waiting houtput, hdrops⟩
        rw [hid]
        exact h.roundId_lt holder

/-- Every step keeps the accounts while the consumer is there. -/
theorem next (h : Ledger s k) {x : Event} (hx : x ≠ .aside .dropReceiver) :
    Ledger s (k.next x) := by
  have hstep := k.next_step x
  generalize k.next x = k' at hstep ⊢
  cases hstep with
  | quiet turns rounds output drops => exact h.quiet turns rounds output drops
  | received turns rounds output drops => exact h.receive turns rounds output drops
  | left _ _ _ => exact absurd rfl hx
  | turned turns sends => exact h.turned turns sends

end Ledger

theorem ledger_after (s : SyncSettings) (m : Transformer ReprojectFault) (halving : Halving Float)
    {xs : List Event} (hlive : ∀ x ∈ xs, x ≠ .aside .dropReceiver) :
    Ledger s ((ofTransformer s m halving).after xs) := by
  induction xs using List.reverseRecOn with
  | nil => exact Ledger.ofTransformer s m halving
  | append_singleton xs x ih =>
    rw [after_concat]
    apply (ih fun y hy => hlive y (List.mem_append_left _ hy)).next
    exact hlive x (List.mem_append_right _ List.mem_cons_self)

end Consumption

/-! ## Other consumers -/

namespace Likeness

variable {m : Transformer ReprojectFault}

/-- Engines that differ in their output queues and in nothing else that the rounds depend on. -/
def ofQueues (m : Transformer ReprojectFault) : Likeness m where
  clouds _ := True
  motions := Eq
  rounds := Eq
  sets := Eq
  queues _ _ := True
  aligned slots frame c c' _ hc := by
    subst hc
    cases slots.alignWith m frame c.history with
    | none => exact Or.inl ⟨rfl, rfl⟩
    | some r => exact Or.inr ⟨r, r, rfl, rfl, rfl⟩
  noted r r' c c' hr hc := by rw [hr, hc]
  absent r r' hr := by rw [hr]
  published e now trigger r r' hr := by rw [hr]
  sent _ _ _ _ _ _ := trivial

theorem SameTurn.eq {a b : Turn} (h : (ofQueues m).SameTurn a b) : a = b := by
  cases h with
  | kept => rfl
  | armed due => rfl
  | closed held sets =>
    cases sets with
    | none => rfl
    | some hset => rw [show _ = _ from hset]

theorem Level.turns_eq {w w' : Interplay} (h : (ofQueues m).Level w w') : w.turns = w'.turns := by
  have hturns : List.Forall₂ Eq w.turns w'.turns :=
    h.turns.imp fun p q hpq => Prod.ext hpq.1 hpq.2.eq
  rwa [List.forall₂_eq_eq_eq] at hturns

end Likeness

namespace Interplay

/-- Whether an event is what the consumer of the output does. -/
def Event.consumes : Event → Bool
  | .aside .receive => true
  | .aside .dropReceiver => true
  | _ => false

theorem Event.aside_of_consumes {x : Event} (h : (!x.consumes) = false) :
    x = .aside .receive ∨ x = .aside .dropReceiver := by
  unfold consumes at h
  split at h
  · exact Or.inl rfl
  · exact Or.inr rfl
  · exact absurd h nofun

section Consumers

variable {m : Transformer ReprojectFault} {w w' : Interplay}

/-- What is not done by a consumer has the same effect whatever the output queues are. -/
theorem level_next (h : (Likeness.ofQueues m).Level w w') (x : Event) :
    (Likeness.ofQueues m).Level (w.next x) (w'.next x) := by
  apply h.next
  · exact fun _ _ _ _ _ => trivial
  · intro y _
    apply h.engine.aside y _ trivial
    exact congrArg y.compensator h.engine.motions

/-- Interleavings in which only the consumers differ, and the lengths of the queues. -/
theorem level_after (s : SyncSettings) (m : Transformer ReprojectFault) (halving : Halving Float)
    (n : Nat) {xs ys : List Event} (h : xs.filter (!·.consumes) = ys.filter (!·.consumes)) :
    (Likeness.ofQueues m).Level ((ofTransformer s m halving).after xs)
      ((ofTransformer { s with queueSize := n } m halving).after ys) := by
  refine foldl_of_filter (R := (Likeness.ofQueues m).Level) (f := next) h
    (fun _ _ hlevel x _ _ => level_next hlevel x) ?_ ?_ ?_
  · intro w w' hlevel x hx
    rcases Event.aside_of_consumes hx with rfl | rfl
    · exact hlevel.aside_left .receive hlevel.engine.motions trivial
    · exact hlevel.aside_left .dropReceiver hlevel.engine.motions trivial
  · intro w w' hlevel x hx
    rcases Event.aside_of_consumes hx with rfl | rfl
    · exact hlevel.aside_right .receive hlevel.engine.motions trivial
    · exact hlevel.aside_right .dropReceiver hlevel.engine.motions trivial
  · exact .start s halving halving n rfl trivial

end Consumers

/-- A round whose stamps are numbers is not lost. -/
theorem built_after (s : SyncSettings) (m : Transformer ReprojectFault) (halving : Halving Float)
    (xs : List Event) {now : Instant} {r : ClosedRound}
    (hr : (now, .closed r) ∈ ((ofTransformer s m halving).after xs).turns)
    (hnumbers : ∀ x ∈ r.slots.stamps, x.isNaN = false) : r.set?.isSome := by
  induction xs using List.reverseRecOn with
  | nil => exact absurd hr List.not_mem_nil
  | append_singleton xs x ih =>
    rw [after_concat] at hr
    rcases ((ofTransformer s m halving).after xs).next_turns x with hturns | ⟨at', input, hturns⟩
    · rw [hturns] at hr
      exact ih hr
    · rw [hturns] at hr
      rcases List.mem_cons.1 hr with hnew | hold
      · rw [← Option.ne_none_iff_isSome, Ne, Engine.set?_step (Prod.mk.inj hnew).2.symm]
        rintro ⟨⟨x, hx, hnan⟩, -⟩
        rw [hnumbers x hx] at hnan
        exact absurd hnan nofun
      · exact ih hold

end Interplay

namespace Consumption

open Interplay (Event)

/-- However the rounds are closed and whenever the consumer receives, the sets are numbered from zero in
the order of the closes, and a round whose stamps are numbers does build its set. What was received is
in that order, and with what waits and what was dropped it makes up all rounds. A set is dropped when
as many older ones wait as the queue can hold, and is queued behind them otherwise. With any other
consumer and a queue of any other length, the same becomes of the rounds at the same instants, with the
same sets, and what the engine and its task know of them is the same. -/
theorem rounds_accounted (s : SyncSettings) (m : Transformer ReprojectFault) (halving : Halving Float)
    {xs : List Event} (hlive : ∀ x ∈ xs, x ≠ .aside .dropReceiver) :
    let k := (ofTransformer s m halving).after xs
    let e := k.interplay.engine
    (publishedIn k.interplay.turns).map SyncedSet.roundId = List.range e.rounds ∧
    (∀ now r, (now, .closed r) ∈ k.interplay.turns →
      (∀ x ∈ r.slots.stamps, x.isNaN = false) → r.set?.isSome) ∧
    k.received.Sublist (publishedIn k.interplay.turns) ∧
    (k.received.map SyncedSet.roundId).Pairwise (· < ·) ∧
    e.rounds = k.received.length + e.output.waiting.length + e.drops ∧
    (∀ x,
      (publishedIn (k.next x).interplay.turns = publishedIn k.interplay.turns ∧
        (k.next x).interplay.engine.drops = e.drops) ∨
      ∃ set, publishedIn (k.next x).interplay.turns = publishedIn k.interplay.turns ++ [set] ∧
        (e.output.waiting.length < max s.queueSize 1 ∧
          (k.next x).interplay.engine.output.waiting = e.output.waiting ++ [set] ∧
          (k.next x).interplay.engine.drops = e.drops ∨
        e.output.waiting.length = max s.queueSize 1 ∧
          (∀ older ∈ e.output.waiting, older.roundId < set.roundId) ∧
          (k.next x).interplay.engine.output.waiting = e.output.waiting ∧
          (k.next x).interplay.engine.drops = e.drops + 1)) ∧
    ∀ n ys, xs.filter (!·.consumes) = ys.filter (!·.consumes) →
      let w := (Interplay.ofTransformer { s with queueSize := n } m halving).after ys
      w.turns = k.interplay.turns ∧ w.engine.collector = e.collector ∧
      w.engine.deadline = e.deadline ∧ w.engine.diagnostics = e.diagnostics ∧
      w.engine.rounds = e.rounds ∧ w.engine.lastPublish = e.lastPublish ∧
      w.scheduler = k.interplay.scheduler ∧ w.now = k.interplay.now ∧
      w.guard = k.interplay.guard ∧ w.task = k.interplay.task ∧
      w.retries = k.interplay.retries := by
  intro k e
  have hinterplay : k.interplay = (Interplay.ofTransformer s m halving).after xs := interplay_after _ xs
  have h : Ledger s k := ledger_after s m halving hlive
  have hreceived : k.received.Sublist (publishedIn k.interplay.turns) :=
    (List.sublist_append_left _ _).trans h.order
  refine ⟨h.ids, ?_, hreceived, ?_, h.balance, ?_, ?_⟩
  · intro now r hr
    rw [hinterplay] at hr
    exact Interplay.built_after s m halving xs hr
  · have hids := hreceived.map SyncedSet.roundId
    rw [h.ids] at hids
    exact List.pairwise_lt_range.sublist hids
  · exact h.offered_or_quiet
  · intro n ys hsame w
    have hlevel := Interplay.level_after s m halving n hsame
    rw [← hinterplay] at hlevel
    exact ⟨hlevel.turns_eq.symm, hlevel.engine.collector_eq, hlevel.engine.deadline_eq,
      hlevel.engine.diagnostics_eq, hlevel.engine.rounds_eq, hlevel.engine.lastPublish_eq,
      hlevel.scheduler_eq, hlevel.now_eq, hlevel.guard_eq, hlevel.task_eq, hlevel.retries_eq⟩

/-- Two lidars, and an output queue with room for one set. -/
def narrow : SyncSettings := { SyncSettings.pair with queueSize := 1 }

/-- A round that both lidars complete. -/
def completing (stamp : Float) : List Event :=
  [.acquire, .arrive "/left" (.ofPoints stamp "left" []), .release,
    .acquire, .arrive "/right" (.ofPoints stamp "right" []), .post, .release]

/-- Three rounds, and a consumer that looks for a set before the last of them. -/
def crowded : List Event := completing 0 ++ completing 1 ++ .aside .receive :: completing 2

/-- The accounts of the three rounds, and the same rounds without the consumer and with more room. -/
theorem rounds_accounted_crowded :
    let k := (ofTransformer narrow FrameGraph.empty.transformer .middle).after crowded
    let w := (Interplay.ofTransformer .pair FrameGraph.empty.transformer .middle).after
      (completing 0 ++ completing 1 ++ completing 2)
    (∀ x ∈ crowded, x ≠ .aside .dropReceiver) ∧
    k.interplay.engine.rounds = k.received.length + k.interplay.engine.output.waiting.length
      + k.interplay.engine.drops ∧
    w.turns = k.interplay.turns := by
  intro k w
  have hlive : ∀ x ∈ crowded, x ≠ .aside .dropReceiver := by
    rintro x hx rfl
    simp [crowded, completing] at hx
  obtain ⟨-, -, -, -, hbalance, -, hothers⟩ :=
    rounds_accounted narrow FrameGraph.empty.transformer .middle hlive
  have hsame : crowded.filter (!·.consumes)
      = (completing 0 ++ completing 1 ++ completing 2).filter (!·.consumes) := by rfl
  obtain ⟨hturns, -⟩ := hothers SyncSettings.pair.queueSize _ hsame
  exact ⟨hlive, hbalance, hturns⟩

end Consumption

end LidarSync
