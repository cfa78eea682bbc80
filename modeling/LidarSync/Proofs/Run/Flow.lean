import LidarSync.Proofs.Round.Backpressure
import LidarSync.Proofs.Round.Lockstep
import LidarSync.Proofs.Sink.Dispatch
import LidarSync.Proofs.Sink.Plans
import LidarSync.Run

/-!
# A run with all its parts side by side

The main loop of a run lets clouds and velocity reports arrive at the synchronizer, takes the sets that
this publishes, counts them and hands them over to the dispatcher; beside it go on the deadline task,
the dispatcher and the workers of the sinks. There are bounded queues between the synchronizer and the
loop, between the loop and the dispatcher, and in front of each sink. `Flow.next` is one step of one of
the parts, and a list of events is one of their interleavings; an event whose turn it is not changes
nothing. The loop can be stopped whenever it waits for something to happen, and by then sets may be on
all the queues.

The invariant (`Flow.Sound`) says where the sets are that the loop has taken: with the dispatcher, on
the queue in front of it, or in the hands of the loop. When all sinks have been reported they are with
the dispatcher.
-/

namespace LidarSync

/-- Why the main loop of a run has stopped. -/
inductive Flow.Cause where
  /-- As many rounds as it may have been published. -/
  | rounds
  | duration
  | shutdown

/-- What the main loop of a run is about to do. -/
inductive Flow.Stage where
  /-- It waits for whatever comes first. -/
  | selecting
  /-- It has counted a set and waits until the dispatcher has room for it. -/
  | handing (s : SyncedSet)
  | stopped (c : Flow.Cause)

/-- A run with all its parts. -/
structure Flow where
  /-- The synchronizer, and the sets that the loop has taken from it. -/
  supply : Consumption
  stage : Flow.Stage := .selecting
  handoff : Outbox SyncedSet
  dispatch : Dispatch
  limits : RunLimits
  summary : RunSummary

/-- The summary with one more set. -/
def RunSummary.publish (r : RunSummary) (s : SyncedSet) : RunSummary :=
  { r with published := r.published + 1, rounds := r.rounds.add s }

/-- The summary after something has happened at a synchronizer. -/
def RunSummary.count (r : RunSummary) (w : Interplay) (x : Interplay.Event) : RunSummary :=
  match x, w.guard with
  | .arrive t c, .held =>
    { r with
      received := r.received + 1
      rejected := r.rejected + if (w.engine.cloud w.now t c).1.toBool then 0 else 1 }
  | .aside (.velocity _), _ => { r with velocitySamples := r.velocitySamples + 1 }
  | _, _ => r

namespace Flow

/-- What can happen next. -/
inductive Event where
  | pass (nanos : Nat)
  /-- Something happens at the synchronizer. -/
  | supply (x : Interplay.Event)
  /-- The loop takes the oldest set that was published. -/
  | take
  | hand
  | stop (c : Cause)
  /-- The dispatcher takes the oldest set that was handed over. -/
  | fetch
  /-- The dispatcher finds that no more sets will come. -/
  | hangUp
  | serve (x : Dispatch.Event)

namespace Stage

/-- The set in the hands of the loop. -/
def inHand : Stage → List SyncedSet
  | .handing s => [s]
  | _ => []

/-- Whether something can happen at the synchronizer. Messages arrive while the loop waits for them, it
shuts the synchronizer down after it has stopped, and the task goes on by itself. -/
def allows (st : Stage) (x : Interplay.Event) : Bool :=
  match x, st with
  | .arrive _ _, .selecting => true
  | .arrive _ _, _ => false
  | .aside (.velocity _), .selecting => true
  | .aside _, _ => false
  | .shutdown, .stopped _ => true
  | .shutdown, _ => false
  | .pass _, _ => false
  | _, _ => true

end Stage

def now (f : Flow) : Instant := f.supply.interplay.now

/-- Whether the loop has published as many rounds as it may. -/
def isFull (f : Flow) : Bool := f.limits.rounds?.any (· ≤ f.summary.published)

/-- Whether the loop stops for a reason while it waits. -/
def stopsFor (f : Flow) : Cause → Bool
  | .rounds => false
  | .duration => f.limits.stop?.any (· ≤ f.now)
  | .shutdown => true

/-- One step of one of the parts. -/
def next (f : Flow) (x : Event) : Flow :=
  match x, f.stage with
  | .pass nanos, _ =>
    { f with supply := f.supply.next (.pass nanos), dispatch := f.dispatch.next (.pass nanos) }
  | .supply x, st =>
    if st.allows x then
      { f with supply := f.supply.next x, summary := f.summary.count f.supply.interplay x }
    else f
  | .take, .selecting =>
    match f.supply.interplay.engine.output.receive.1 with
    | some s =>
      { f with
        supply := f.supply.next (.aside .receive)
        stage := .handing s
        summary := f.summary.publish s }
    | none => f
  | .hand, .handing s =>
    match f.handoff.send s with
    | (.queued, handoff) =>
      { f with handoff, stage := if f.isFull then .stopped .rounds else .selecting }
    | _ => f
  | .stop c, .selecting => if f.stopsFor c then { f with stage := .stopped c } else f
  | .fetch, _ =>
    match f.dispatch.phase, f.handoff.receive with
    | .receiving, (some s, handoff) => { f with handoff, dispatch := f.dispatch.next (.receive s) }
    | _, _ => f
  | .hangUp, .stopped _ =>
    if f.handoff.waiting.isEmpty then { f with dispatch := f.dispatch.next .endInput } else f
  | .serve x, _ => if x.isOwn then { f with dispatch := f.dispatch.next x } else f
  | _, _ => f

/-- Where an interleaving leads. -/
def after (f : Flow) (xs : List Event) : Flow := xs.foldl next f

theorem after_concat (f : Flow) (xs : List Event) (x : Event) :
    f.after (xs ++ [x]) = (f.after xs).next x := by
  unfold after
  rw [List.foldl_append]
  rfl

theorem after_append (f : Flow) (xs ys : List Event) :
    f.after (xs ++ ys) = (f.after xs).after ys := List.foldl_append

/-- A run that begins, with nothing on the queue to the dispatcher. -/
def ofRun (r : Run) : Flow where
  supply := ⟨r.synchronizer.interplay [], []⟩
  handoff := .ofCapacity r.synchronizer.engine.settings.queueSize
  dispatch := { lanes := r.dispatcher.lines.map fun l => .ofFeed l.feed }
  limits := r.limits
  summary := r.summary

/-- What a run tells at its end. -/
def result (f : Flow) : RunSummary :=
  { f.summary with elapsed := f.now, deliveries := f.dispatch.report }

variable {f f' : Flow} {x : Event}

/-! ## One step -/

/-- All that a step can do. -/
inductive Step (f : Flow) : Event → Flow → Prop where
  | idle {x : Event} : Step f x f
  | passed (nanos : Nat) :
      Step f (.pass nanos) { f with
        supply := f.supply.next (.pass nanos)
        dispatch := f.dispatch.next (.pass nanos) }
  | supplied (x : Interplay.Event) (allowed : f.stage.allows x = true) :
      Step f (.supply x) { f with
        supply := f.supply.next x
        summary := f.summary.count f.supply.interplay x }
  | took (s : SyncedSet) (stage : f.stage = .selecting)
      (oldest : f.supply.interplay.engine.output.receive.1 = some s) :
      Step f .take { f with
        supply := f.supply.next (.aside .receive)
        stage := .handing s
        summary := f.summary.publish s }
  | handed (s : SyncedSet) (stage : f.stage = .handing s)
      (room : f.handoff.waiting.length < f.handoff.capacity) :
      Step f .hand { f with
        handoff := { f.handoff with waiting := f.handoff.waiting ++ [s] }
        stage := if f.isFull then .stopped .rounds else .selecting }
  | ended (c : Cause) (stage : f.stage = .selecting) (cause : f.stopsFor c = true) :
      Step f (.stop c) { f with stage := .stopped c }
  | fetched (s : SyncedSet) (rest : List SyncedSet) (phase : f.dispatch.phase = .receiving)
      (oldest : f.handoff.waiting = s :: rest) :
      Step f .fetch { f with
        handoff := { f.handoff with waiting := rest }
        dispatch := f.dispatch.next (.receive s) }
  | hungUp (c : Cause) (stage : f.stage = .stopped c) (empty : f.handoff.waiting = []) :
      Step f .hangUp { f with dispatch := f.dispatch.next .endInput }
  | served (x : Dispatch.Event) (own : x.isOwn = true) :
      Step f (.serve x) { f with dispatch := f.dispatch.next x }

theorem next_step (hopen : f.handoff.closed = false) (x : Event) : Step f x (f.next x) := by
  unfold next
  split
  · exact .passed _
  · split
    · next hallowed => exact .supplied _ hallowed
    · exact .idle
  · next hstage =>
    split
    · next s holdest => exact .took s hstage holdest
    · exact .idle
  · next s hstage =>
    rcases Outbox.send_of_open hopen s with ⟨hroom, hsend⟩ | ⟨-, hsend⟩
    · rw [hsend]
      exact .handed s hstage hroom
    · rw [hsend]
      exact .idle
  · next hstage =>
    split
    · next hcause => exact .ended _ hstage hcause
    · exact .idle
  · unfold Outbox.receive
    cases hwaiting : f.handoff.waiting with
    | nil =>
      split
      · next hreceive => exact absurd hreceive nofun
      · exact .idle
    | cons s rest =>
      split
      · next hphase hreceive =>
        obtain ⟨hs, rfl⟩ := Prod.mk.inj hreceive
        obtain rfl := Option.some.inj hs
        exact .fetched s rest hphase hwaiting
      · exact .idle
  · next c hstage =>
    split
    · next hempty => exact .hungUp c hstage (List.isEmpty_iff.1 hempty)
    · exact .idle
  · split
    · next hown => exact .served _ hown
    · exact .idle
  · exact .idle

/-! ## The invariant -/

/-- What is known of the number of rounds published, given how many there may be. A limit of no rounds
lets one be published. -/
def Stage.Within (st : Stage) (rounds? : Option Nat) (published : Nat) : Prop :=
  match st with
  | .selecting => ∀ m, rounds? = some m → published < max m 1
  | .handing _ => 0 < published ∧ ∀ m, rounds? = some m → published ≤ max m 1
  | .stopped .rounds => ∃ m, rounds? = some m ∧ published = max m 1
  | .stopped _ => ∀ m, rounds? = some m → published < max m 1

theorem Stage.Within.le {st : Stage} {rounds? : Option Nat} {published : Nat}
    (h : st.Within rounds? published) {m : Nat} (hm : rounds? = some m) : published ≤ max m 1 := by
  cases st with
  | selecting => exact Nat.le_of_lt (h m hm)
  | handing set => exact h.2 m hm
  | stopped c =>
    cases c with
    | rounds =>
      obtain ⟨m', hm', heq⟩ := h
      obtain rfl := Option.some.inj (hm.symm.trans hm')
      exact Nat.le_of_eq heq
    | duration => exact Nat.le_of_lt (h m hm)
    | shutdown => exact Nat.le_of_lt (h m hm)

/-- What holds of every interleaving. -/
structure Sound (s : SyncSettings) (sinks : List (String × Nat)) (limits : RunLimits) (f : Flow) :
    Prop where
  ledger : f.supply.Ledger s
  dispatch : f.dispatch.Sound sinks
  limits_eq : f.limits = limits
  handoff_open : f.handoff.closed = false
  taken : f.dispatch.received ++ f.handoff.waiting ++ f.stage.inHand = f.supply.received
  published_eq : f.summary.published = f.supply.received.length
  total_eq : f.summary.rounds.total = f.summary.published
  kinds_eq : f.summary.rounds.total = f.summary.rounds.complete + f.summary.rounds.timeout
  rejected_le : f.summary.rejected ≤ f.summary.received
  within : f.stage.Within limits.rounds? f.summary.published
  hung : f.dispatch.Ended → (∃ c, f.stage = .stopped c) ∧ f.handoff.waiting = []

/-! ### What the parts leave alone -/

theorem Stage.ne_of_allows {st : Stage} {x : Interplay.Event} (h : st.allows x = true) :
    x ≠ .aside .receive ∧ x ≠ .aside .dropReceiver := by
  constructor <;> (rintro rfl; cases st <;> exact absurd h nofun)

theorem received_next {k : Consumption} {x : Interplay.Event} (hx : x ≠ .aside .receive) :
    (k.next x).received = k.received := by
  unfold Consumption.next Consumption.handed
  split
  · exact absurd rfl hx
  · exact List.append_nil _

/-- What comes in counts neither as published nor in the rounds. -/
theorem count_frame (r : RunSummary) (w : Interplay) (x : Interplay.Event) :
    (r.count w x).published = r.published ∧ (r.count w x).rounds = r.rounds ∧
      (r.rejected ≤ r.received → (r.count w x).rejected ≤ (r.count w x).received) := by
  unfold RunSummary.count
  split
  · refine ⟨rfl, rfl, fun hle => ?_⟩
    dsimp only
    split <;> omega
  · exact ⟨rfl, rfl, id⟩
  · exact ⟨rfl, rfl, id⟩

theorem kinds_add {t : RoundTally} (h : t.total = t.complete + t.timeout) (s : SyncedSet) :
    (t.add s).total = (t.add s).complete + (t.add s).timeout := by
  unfold RoundTally.add
  dsimp only
  cases s.details.trigger with
  | complete =>
    rw [if_pos rfl, if_neg nofun]
    omega
  | timeout =>
    rw [if_neg nofun, if_pos rfl]
    omega

theorem ne_of_isOwn {x : Dispatch.Event} (h : x.isOwn = true) :
    (∀ s, x ≠ .receive s) ∧ x ≠ .endInput := by
  constructor
  · rintro s rfl
    exact absurd h nofun
  · rintro rfl
    exact absurd h nofun

/-! ### Every step keeps it -/

namespace Sound

variable {s : SyncSettings} {sinks : List (String × Nat)} {limits : RunLimits}

theorem pass (h : Sound s sinks limits f) (nanos : Nat) :
    Sound s sinks limits { f with
      supply := f.supply.next (.pass nanos)
      dispatch := f.dispatch.next (.pass nanos) } :=
  { h with
    ledger := h.ledger.next nofun
    dispatch := h.dispatch.next (.pass nanos)
    taken := by
      dsimp only
      rw [f.dispatch.received_next (x := .pass nanos) nofun, received_next (x := .pass nanos) nofun]
      exact h.taken
    published_eq := by
      dsimp only
      rw [received_next (x := .pass nanos) nofun]
      exact h.published_eq
    hung := fun hended => h.hung (Dispatch.Ended.of_next (x := .pass nanos) nofun hended) }

theorem supply (h : Sound s sinks limits f) {x : Interplay.Event}
    (hallowed : f.stage.allows x = true) :
    Sound s sinks limits { f with
      supply := f.supply.next x
      summary := f.summary.count f.supply.interplay x } := by
  obtain ⟨hreceive, hdrop⟩ := Stage.ne_of_allows hallowed
  obtain ⟨hpublished, hrounds, hrejected⟩ := count_frame f.summary f.supply.interplay x
  exact { h with
    ledger := h.ledger.next hdrop
    taken := h.taken.trans (received_next hreceive).symm
    published_eq := by
      dsimp only
      rw [hpublished, received_next hreceive]
      exact h.published_eq
    total_eq := by
      dsimp only
      rw [hpublished, hrounds]
      exact h.total_eq
    kinds_eq := by
      dsimp only
      rw [hrounds]
      exact h.kinds_eq
    rejected_le := hrejected h.rejected_le
    within := by
      dsimp only
      rw [hpublished]
      exact h.within }

theorem not_ended (h : Sound s sinks limits f) (hgoing : ∀ c, f.stage ≠ .stopped c) :
    ¬ f.dispatch.Ended := by
  intro hended
  obtain ⟨⟨c, hstopped⟩, -⟩ := h.hung hended
  exact hgoing c hstopped

theorem take (h : Sound s sinks limits f) {set : SyncedSet} (hstage : f.stage = .selecting)
    (holdest : f.supply.interplay.engine.output.receive.1 = some set) :
    Sound s sinks limits { f with
      supply := f.supply.next (.aside .receive)
      stage := .handing set
      summary := f.summary.publish set } := by
  have hreceived : (f.supply.next (.aside .receive)).received = f.supply.received ++ [set] := by
    unfold Consumption.next Consumption.handed
    rw [holdest]
    rfl
  have htaken := h.taken
  have hwithin := h.within
  rw [hstage] at htaken hwithin
  exact { h with
    ledger := h.ledger.next nofun
    taken := by
      dsimp only
      rw [hreceived, ← htaken]
      exact congrArg (· ++ [set]) (List.append_nil _).symm
    published_eq := by
      dsimp only
      rw [hreceived, List.length_append, ← h.published_eq]
      rfl
    total_eq := congrArg (· + 1) h.total_eq
    kinds_eq := kinds_add h.kinds_eq set
    within := ⟨Nat.succ_pos _, fun m hm => hwithin m hm⟩
    hung := fun hended => absurd hended (h.not_ended (by rw [hstage]; exact nofun)) }

theorem hand (h : Sound s sinks limits f) {set : SyncedSet} (hstage : f.stage = .handing set) :
    Sound s sinks limits { f with
      handoff := { f.handoff with waiting := f.handoff.waiting ++ [set] }
      stage := if f.isFull then .stopped .rounds else .selecting } := by
  have htaken := h.taken
  have hwithin := h.within
  rw [hstage] at htaken hwithin
  obtain ⟨hsome, hle⟩ := hwithin
  have hempty : (if f.isFull then Stage.stopped .rounds else .selecting).inHand = [] := by
    split <;> rfl
  exact { h with
    taken := by
      dsimp only
      rw [hempty, List.append_nil, ← List.append_assoc]
      exact htaken
    within := by
      dsimp only
      unfold isFull
      rw [h.limits_eq]
      cases hrounds : limits.rounds? with
      | none => exact nofun
      | some m =>
        have hle := hle m hrounds
        by_cases hfull : m ≤ f.summary.published
        · rw [Option.any_some, decide_eq_true hfull]
          exact ⟨m, rfl, by omega⟩
        · rw [Option.any_some, decide_eq_false hfull]
          rintro m' hm'
          obtain rfl := Option.some.inj hm'
          omega
    hung := fun hended => absurd hended (h.not_ended (by rw [hstage]; exact nofun)) }

theorem stop (h : Sound s sinks limits f) {c : Cause} (hstage : f.stage = .selecting)
    (hcause : f.stopsFor c = true) : Sound s sinks limits { f with stage := .stopped c } := by
  have htaken := h.taken
  have hwithin := h.within
  rw [hstage] at htaken hwithin
  exact { h with
    taken := htaken
    within := by
      cases c with
      | rounds => exact absurd hcause nofun
      | duration => exact hwithin
      | shutdown => exact hwithin
    hung := fun hended => absurd hended (h.not_ended (by rw [hstage]; exact nofun)) }

theorem fetch (h : Sound s sinks limits f) {set : SyncedSet} {rest : List SyncedSet}
    (hphase : f.dispatch.phase = .receiving) (holdest : f.handoff.waiting = set :: rest) :
    Sound s sinks limits { f with
      handoff := { f.handoff with waiting := rest }
      dispatch := f.dispatch.next (.receive set) } := by
  have htaken := h.taken
  rw [holdest] at htaken
  exact { h with
    dispatch := h.dispatch.next (.receive set)
    taken := by
      dsimp only
      rw [Dispatch.next_receive hphase]
      dsimp only
      rw [List.append_assoc f.dispatch.received]
      exact htaken
    hung := fun hended => by
      have hempty := (h.hung (Dispatch.Ended.of_next (x := .receive set) nofun hended)).2
      exact absurd (holdest.symm.trans hempty) nofun }

theorem hangUp (h : Sound s sinks limits f) {c : Cause} (hstage : f.stage = .stopped c)
    (hempty : f.handoff.waiting = []) :
    Sound s sinks limits { f with dispatch := f.dispatch.next .endInput } :=
  { h with
    dispatch := h.dispatch.next .endInput
    taken := by
      dsimp only
      rw [f.dispatch.received_next (x := .endInput) nofun]
      exact h.taken
    hung := fun _ => ⟨⟨c, hstage⟩, hempty⟩ }

theorem serve (h : Sound s sinks limits f) {x : Dispatch.Event} (hown : x.isOwn = true) :
    Sound s sinks limits { f with dispatch := f.dispatch.next x } := by
  obtain ⟨hreceive, hend⟩ := ne_of_isOwn hown
  exact { h with
    dispatch := h.dispatch.next x
    taken := by
      dsimp only
      rw [f.dispatch.received_next hreceive]
      exact h.taken
    hung := fun hended => h.hung (hended.of_next hend) }

theorem step (h : Sound s sinks limits f) (hstep : Step f x f') : Sound s sinks limits f' := by
  cases hstep with
  | idle => exact h
  | passed nanos => exact h.pass nanos
  | supplied x allowed => exact h.supply allowed
  | took set stage oldest => exact h.take stage oldest
  | handed set stage room => exact h.hand stage
  | ended c stage cause => exact h.stop stage cause
  | fetched set rest phase oldest => exact h.fetch phase oldest
  | hungUp c stage empty => exact h.hangUp stage empty
  | served x own => exact h.serve own

theorem next (h : Sound s sinks limits f) (x : Event) : Sound s sinks limits (f.next x) :=
  h.step (next_step h.handoff_open x)

theorem after (h : Sound s sinks limits f) (xs : List Event) : Sound s sinks limits (f.after xs) := by
  induction xs using List.reverseRecOn with
  | nil => exact h
  | append_singleton xs x ih =>
    rw [after_concat]
    exact ih.next x

end Sound

end Flow

end LidarSync
