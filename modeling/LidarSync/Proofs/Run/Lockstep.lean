import LidarSync.Proofs.Run.Flow
import LidarSync.Proofs.Sink.Lockstep

/-!
# A run as an interleaving

A run does one thing after the other: whenever something has been published it is counted, handed over
and offered to all sinks at once, and then the workers do all that they can. So a run that comes to its
end has done what the parts can do side by side (`Run.finish_interleaved`). As soon as it is over, what
the synchronizer still does is nothing to it.
-/

namespace LidarSync

open Synchronizer (settling)

/-- Whether an event is something that the synchronizer does whatever the loop is about, and that
counts for nothing. -/
def Interplay.Event.isInner : Interplay.Event → Bool
  | .acquire => true
  | .post => true
  | .release => true
  | .look => true
  | .wake => true
  | .attempt => true
  | .conclude => true
  | _ => false

/-- A synchronizer with sets in front of those that wait for the consumer. -/
def Synchronizer.refill (s : Synchronizer) (sets : List SyncedSet) : Synchronizer :=
  { s with engine := { s.engine with
      output := { s.engine.output with waiting := sets ++ s.engine.output.waiting } } }

namespace Flow

/-! ## Several steps of one part -/

theorem next_serve {x : Dispatch.Event} (hown : x.isOwn = true) (f : Flow) :
    f.next (.serve x) = { f with dispatch := f.dispatch.next x } := by
  unfold next
  exact if_pos hown

theorem after_serve {xs : List Dispatch.Event} (hown : ∀ x ∈ xs, x.isOwn = true) (f : Flow) :
    f.after (xs.map .serve) = { f with dispatch := f.dispatch.after xs } := by
  induction xs generalizing f with
  | nil => rfl
  | cons x xs ih =>
    obtain ⟨hfirst, hown⟩ := List.forall_mem_cons.1 hown
    change (f.next (.serve x)).after (xs.map .serve) = _
    rw [next_serve hfirst, ih hown]
    rfl

theorem next_supply {x : Interplay.Event} {f : Flow} (hallowed : f.stage.allows x = true) :
    f.next (.supply x) = { f with
      supply := f.supply.next x
      summary := f.summary.count f.supply.interplay x } := by
  unfold next
  exact if_pos hallowed

/-- The loop neither waits for what goes on inside the synchronizer nor counts it. -/
theorem inner_frame {x : Interplay.Event} (hinner : x.isInner = true) (f : Flow) :
    f.stage.allows x = true ∧ f.summary.count f.supply.interplay x = f.summary ∧
      f.supply.next x = ⟨f.supply.interplay.next x, f.supply.received⟩ := by
  have hnone : ∀ k : Consumption, (⟨k.interplay.next x, k.received ++ []⟩ : Consumption) =
      ⟨k.interplay.next x, k.received⟩ := fun k => by rw [List.append_nil]
  cases x with
  | acquire => exact ⟨rfl, rfl, hnone f.supply⟩
  | post => exact ⟨rfl, rfl, hnone f.supply⟩
  | release => exact ⟨rfl, rfl, hnone f.supply⟩
  | look => exact ⟨rfl, rfl, hnone f.supply⟩
  | wake => exact ⟨rfl, rfl, hnone f.supply⟩
  | attempt => exact ⟨rfl, rfl, hnone f.supply⟩
  | conclude => exact ⟨rfl, rfl, hnone f.supply⟩
  | _ => exact absurd hinner nofun

theorem after_supply {xs : List Interplay.Event} (hinner : ∀ x ∈ xs, x.isInner = true) (f : Flow) :
    f.after (xs.map .supply) =
      { f with supply := ⟨f.supply.interplay.after xs, f.supply.received⟩ } := by
  induction xs generalizing f with
  | nil => rfl
  | cons x xs ih =>
    obtain ⟨hfirst, hinner⟩ := List.forall_mem_cons.1 hinner
    obtain ⟨hallowed, hcount, hnext⟩ := inner_frame hfirst f
    change (f.next (.supply x)).after (xs.map .supply) = _
    rw [next_supply hallowed, hcount, hnext, ih hinner]
    rfl

/-! ## Where a run is -/

/-- The main loop and the synchronizer of a run that is not over, where sets have been taken off the
output that still have to be published. -/
structure Going (f : Flow) (r : Run) (sets : List SyncedSet) : Prop where
  stage_eq : f.stage = .selecting
  post_open : r.synchronizer.scheduler.closed = false
  running : r.synchronizer.scheduler.running = true
  whole : nanosPerMilli ∣ r.now
  supply_eq : ∃ turns, f.supply.interplay = (r.synchronizer.refill sets).interplay turns

/-- All parts are where a run is, in which sets still have to be published. -/
structure At (f : Flow) (r : Run) (sets : List SyncedSet) : Prop where
  now_eq : f.now = r.now
  summary_eq : f.summary = r.summary
  limits_eq : f.limits = r.limits
  fed : f.dispatch.Fed r.dispatcher.lines
  prompt : ∀ l ∈ r.dispatcher.lines, l.outlet.isPrompt = true
  receiving : f.dispatch.phase = .receiving
  handoff_empty : f.handoff.waiting = []
  handoff_room : 0 < f.handoff.capacity
  going : r.ended = false → f.Going r sets
  halted : r.ended = true → ∃ c, f.stage = .stopped c

variable {s : SyncSettings} {sinks : List (String × Nat)} {limits : RunLimits}
  {f : Flow} {r r' : Run} {sets : List SyncedSet}

theorem At.exists_turns (h : f.At r []) (hgoing : r.ended = false) :
    ∃ turns, f.supply.interplay = r.synchronizer.interplay turns := (h.going hgoing).supply_eq

theorem next_take {set : SyncedSet} (hstage : f.stage = .selecting)
    (holdest : f.supply.interplay.engine.output.receive.1 = some set) :
    f.next .take = { f with
      supply := f.supply.next (.aside .receive)
      stage := .handing set
      summary := f.summary.publish set } := by
  unfold next
  rw [hstage, holdest]

theorem next_hand {set : SyncedSet} (hstage : f.stage = .handing set) (hopen : f.handoff.closed = false)
    (hroom : f.handoff.waiting.length < f.handoff.capacity) :
    f.next .hand = { f with
      handoff := { f.handoff with waiting := f.handoff.waiting ++ [set] }
      stage := if f.isFull then .stopped .rounds else .selecting } := by
  unfold next
  rw [hstage]
  rcases Outbox.send_of_open hopen set with ⟨-, hsend⟩ | ⟨hfull, -⟩
  · dsimp only
    rw [hsend]
  · exact absurd hroom (Nat.not_lt_of_le hfull)

theorem next_fetch {set : SyncedSet} {rest : List SyncedSet} (hphase : f.dispatch.phase = .receiving)
    (hwaiting : f.handoff.waiting = set :: rest) :
    f.next .fetch = { f with
      handoff := { f.handoff with waiting := rest }
      dispatch := f.dispatch.next (.receive set) } := by
  unfold next Outbox.receive
  rw [hphase, hwaiting]
  rfl

/-- The loop takes a set and hands it over, and the dispatcher takes it. -/
theorem after_publish {set : SyncedSet} (hopen : f.handoff.closed = false)
    (hempty : f.handoff.waiting = []) (hroom : 0 < f.handoff.capacity)
    (hstage : f.stage = .selecting) (hphase : f.dispatch.phase = .receiving)
    (holdest : f.supply.interplay.engine.output.receive.1 = some set) :
    f.after [.take, .hand, .fetch] = { f with
      supply := f.supply.next (.aside .receive)
      stage := if f.limits.rounds?.any (· ≤ f.summary.published + 1) then .stopped .rounds
        else .selecting
      dispatch := f.dispatch.next (.receive set)
      summary := f.summary.publish set } := by
  have htake := next_take hstage holdest
  have hroom' : f.handoff.waiting.length < f.handoff.capacity := by
    rw [hempty]
    exact hroom
  have hhanding : (f.next .take).stage = .handing set := by rw [htake]
  have hhand := next_hand hhanding (by rw [htake]; exact hopen) (by rw [htake]; exact hroom')
  have hone : ((f.next .take).next .hand).handoff.waiting = [set] := by
    rw [hhand, htake]
    exact congrArg (· ++ [set]) hempty
  have hfetch := next_fetch (by rw [hhand, htake]; exact hphase) hone
  change ((f.next .take).next .hand).next .fetch = _
  rw [hfetch, hhand, htake, ← hempty]
  rfl

/-- A set goes all the way from the output of the synchronizer to the queues of the sinks. -/
theorem At.after_round {set : SyncedSet} (h : f.At r (set :: sets)) (hs : Sound s sinks limits f)
    (hgoing : r.ended = false) :
    ∃ xs lanes, f.after xs = { f with
        supply := f.supply.next (.aside .receive)
        stage := if f.limits.rounds?.any (· ≤ f.summary.published + 1) then .stopped .rounds
          else .selecting
        dispatch := { f.dispatch with lanes, received := f.dispatch.received ++ [set] }
        summary := f.summary.publish set } ∧
      Dispatch.Fed { f.dispatch with lanes } (r.dispatcher.lines.map (·.offer set)) := by
  have holdest : f.supply.interplay.engine.output.receive.1 = some set := by
    obtain ⟨turns, hsupply⟩ := (h.going hgoing).supply_eq
    rw [hsupply]
    rfl
  have hpublish := after_publish hs.handoff_open h.handoff_empty h.handoff_room
    (h.going hgoing).stage_eq h.receiving holdest
  obtain ⟨lanes, hoffers, hfed⟩ := h.fed.offer hs.dispatch h.receiving set
  refine ⟨[.take, .hand, .fetch] ++ (List.replicate f.dispatch.lanes.length .offer).map .serve,
    lanes, ?_, hfed⟩
  rw [after_append, hpublish, after_serve (fun x hx => by rw [List.eq_of_mem_replicate hx]; rfl)]
  dsimp only
  rw [hoffers]

/-- The set is counted, and it is offered to all sinks. -/
theorem At.publish {set : SyncedSet} (h : f.At r (set :: sets)) (hs : Sound s sinks limits f) :
    ∃ xs, (f.after xs).At (r.publish set) sets := by
  unfold Run.publish
  cases hended : r.ended with
  | true =>
    rw [if_pos rfl]
    exact ⟨[], { h with going := fun hgoing => absurd (hended.symm.trans hgoing) nofun }⟩
  | false =>
    obtain ⟨-, hopen, hrunning, hwhole, turns, hsupply⟩ := h.going hended
    obtain ⟨xs, lanes, hafter, hfed⟩ := h.after_round hs hended
    refine ⟨xs, ?_⟩
    rw [hafter, if_neg Bool.false_ne_true]
    exact {
      now_eq := h.now_eq
      summary_eq := by
        dsimp only
        rw [h.summary_eq]
        rfl
      limits_eq := h.limits_eq
      fed := hfed
      prompt := by
        intro l hl
        obtain ⟨l', hl', rfl⟩ := List.mem_map.1 hl
        exact h.prompt l' hl'
      receiving := h.receiving
      handoff_empty := h.handoff_empty
      handoff_room := h.handoff_room
      going := by
        dsimp only
        rw [h.limits_eq, h.summary_eq]
        intro hgoing
        rw [hgoing, if_neg Bool.false_ne_true]
        exact ⟨rfl, hopen, hrunning, hwhole, turns, by dsimp only [Consumption.next]; rw [hsupply]; rfl⟩
      halted := by
        dsimp only
        rw [h.limits_eq, h.summary_eq]
        intro hover
        rw [hover, if_pos rfl]
        exact ⟨_, rfl⟩ }

/-! ## What a run does at an instant -/

/-- The parts can come to where a run is. -/
def Leads (f : Flow) (r : Run) : Prop := ∃ xs, (f.after xs).At r []

theorem At.leads (h : f.At r []) : f.Leads r := ⟨[], h⟩

theorem Leads.trans (h : f.Leads r) (hs : Sound s sinks limits f)
    (hnext : ∀ {g : Flow}, g.At r [] → Sound s sinks limits g → g.Leads r') : f.Leads r' := by
  obtain ⟨xs, hat⟩ := h
  obtain ⟨ys, hat'⟩ := hnext hat (hs.after xs)
  refine ⟨xs ++ ys, ?_⟩
  rw [after_append]
  exact hat'

theorem At.publishEach (h : f.At r sets) (hs : Sound s sinks limits f) :
    f.Leads (sets.foldl Run.publish r) := by
  induction sets generalizing f r with
  | nil => exact h.leads
  | cons set sets ih =>
    obtain ⟨xs, hat⟩ := h.publish hs
    obtain ⟨ys, hat'⟩ := ih hat (hs.after xs)
    refine ⟨xs ++ ys, ?_⟩
    rw [after_append]
    exact hat'

theorem receive_all (sets : List SyncedSet) {sync : Synchronizer}
    (h : sync.engine.output.waiting = sets) :
    sets.foldl (fun sync _ => sync.receive.2) sync = { sync with engine := { sync.engine with
      output := { sync.engine.output with waiting := [] } } } := by
  induction sets generalizing sync with
  | nil =>
    rw [List.foldl_nil, ← h]
  | cons set sets ih =>
    have htail : sync.receive.2.engine.output.waiting = sets := congrArg List.tail h
    exact ih htail

theorem At.publishAll (h : f.At r []) (hs : Sound s sinks limits f) : f.Leads r.publishAll := by
  unfold Run.publishAll
  dsimp only
  rw [receive_all r.synchronizer.engine.output.waiting rfl]
  refine publishEach ?_ hs
  exact { h with
    going := fun hgoing => by
      obtain ⟨hstage, hopen, hrunning, hwhole, turns, hsupply⟩ := h.going hgoing
      refine ⟨hstage, hopen, hrunning, hwhole, turns, hsupply.trans ?_⟩
      unfold Synchronizer.refill
      dsimp only
      rw [List.append_nil]
      rfl }

theorem At.settleSinks (h : f.At r []) :
    f.Leads { r with
      dispatcher := (r.dispatcher.settle r.surroundings).1
      surroundings := (r.dispatcher.settle r.surroundings).2 } := by
  obtain ⟨xs, lanes, hown, hafter, hfed⟩ := h.fed.settle r.surroundings
  refine ⟨xs.map .serve, ?_⟩
  rw [after_serve hown, hafter]
  exact { h with
    fed := hfed
    prompt := Dispatch.settleAll_prompt h.prompt r.surroundings
    going := fun hgoing => { h.going hgoing with } }

theorem now_settle {sync sync' : Synchronizer} (h : sync.settle = some sync') :
    sync'.now = sync.now := by
  unfold Synchronizer.settle at h
  obtain ⟨_, -, rfl⟩ := Option.map_eq_some_iff.1 h
  rfl

theorem isInner_of_mem_settling {x : Interplay.Event} (h : x ∈ settling) : x.isInner = true := by
  unfold settling at h
  simp only [List.mem_cons, List.not_mem_nil, or_false] at h
  rcases h with rfl | rfl | rfl | rfl <;> rfl

theorem At.settleSynchronizer (h : f.At r []) {sync : Synchronizer}
    (hsettle : r.synchronizer.settle = some sync) : f.Leads { r with synchronizer := sync } := by
  have hnow := now_settle hsettle
  by_cases hended : r.ended = true
  · exact At.leads { h with
      now_eq := h.now_eq.trans hnow.symm
      going := fun hgoing => absurd (hended.symm.trans hgoing) nofun }
  · have hgoing := h.going (eq_false_of_ne_true hended)
    obtain ⟨turns, hsupply⟩ := h.exists_turns (eq_false_of_ne_true hended)
    obtain ⟨hrested, -, turns', hevents⟩ :=
      Synchronizer.settle_interleaved turns hsettle hgoing.post_open hgoing.running hgoing.whole
    refine ⟨settling.map .supply, ?_⟩
    rw [after_supply (fun _ => isInner_of_mem_settling), hsupply]
    have hafter : (r.synchronizer.interplay turns).after settling = sync.interplay turns' := hevents
    exact { h with
      now_eq := congrArg Interplay.now hafter
      going := fun _ =>
        ⟨hgoing.stage_eq, hrested.post_open, hrested.running, hrested.whole, turns', hafter⟩
      halted := fun hover => absurd hover hended }

theorem At.settle (h : f.At r []) (hs : Sound s sinks limits f) (hsettle : r.settle = some r') :
    f.Leads r' := by
  obtain ⟨sync, hsync, heq⟩ := Option.bind_eq_some_iff.1 hsettle
  obtain rfl := Option.some.inj heq
  refine h.settleSinks.trans hs fun hsinks hs => ?_
  refine (hsinks.settleSynchronizer hsync).trans hs fun hboth hs => ?_
  exact At.publishAll { hboth with going := fun hgoing => { hboth.going hgoing with } } hs

/-- A cloud arrives, and the loop counts it. -/
theorem after_arrival (hstage : f.stage = .selecting) {sync : Synchronizer} {turns : Turns}
    (hsupply : f.supply.interplay = sync.interplay turns) (t : Topic) (c : Cloud) :
    f.after ([.acquire, .arrive t c, .post, .release].map .supply) = { f with
      supply :=
        ⟨(sync.arrived t c).interplay ((sync.now, (sync.engine.cloud sync.now t c).2.turn) :: turns),
          f.supply.received⟩
      summary := { f.summary with
        received := f.summary.received + 1
        rejected := f.summary.rejected +
          if (sync.engine.cloud sync.now t c).1.toBool then 0 else 1 } } := by
  have hacquire : f.next (.supply .acquire) = { f with
      supply := ⟨{ sync.interplay turns with guard := .held }, f.supply.received⟩ } := by
    have hinner : ∀ x ∈ [Interplay.Event.acquire], x.isInner = true := List.forall_mem_singleton.2 rfl
    have hlock := after_supply hinner f
    rw [hsupply] at hlock
    exact hlock
  have harrive : (f.next (.supply .acquire)).next (.supply (.arrive t c)) = { f with
      supply := ⟨{ sync.interplay turns with guard := .held }.arrive t c, f.supply.received⟩
      summary := { f.summary with
        received := f.summary.received + 1
        rejected := f.summary.rejected +
          if (sync.engine.cloud sync.now t c).1.toBool then 0 else 1 } } := by
    rw [next_supply (by rw [hacquire, hstage]; rfl), hacquire]
    unfold Consumption.next Consumption.handed
    dsimp only
    rw [Option.toList_none, List.append_nil]
    rfl
  have hinner : ∀ x ∈ [Interplay.Event.post, .release], x.isInner = true :=
    List.forall_mem_cons.2 ⟨rfl, List.forall_mem_singleton.2 rfl⟩
  have hrest := after_supply hinner ((f.next (.supply .acquire)).next (.supply (.arrive t c)))
  change ((f.next (.supply .acquire)).next (.supply (.arrive t c))).after
    ([.post, .release].map .supply) = _
  rw [hrest, harrive]
  have hall := sync.arrive_interleaved turns t c
  change ((({ sync.interplay turns with guard := .held }.arrive t c).next .post).next .release) = _
    at hall
  dsimp only
  rw [← hall]
  rfl

theorem At.velocity (h : f.At r []) (hgoing : r.ended = false) (v : Velocity Float) :
    f.Leads { r with
      synchronizer := r.synchronizer.velocity v
      summary := { r.summary with velocitySamples := r.summary.velocitySamples + 1 } } := by
  have hselecting := h.going hgoing
  obtain ⟨turns, hsupply⟩ := h.exists_turns hgoing
  refine ⟨[.supply (.aside (.velocity v))], ?_⟩
  change (f.next (.supply (.aside (.velocity v)))).At _ []
  rw [next_supply (by rw [hselecting.stage_eq]; rfl)]
  have hnext : (f.supply.next (.aside (.velocity v))).interplay =
      (r.synchronizer.velocity v).interplay turns := by
    unfold Consumption.next
    rw [hsupply]
    rfl
  exact { h with
    now_eq := congrArg Interplay.now hnext
    summary_eq := by
      rw [← h.summary_eq]
      rfl
    going := fun _ => { hselecting with supply_eq := ⟨turns, hnext⟩ } }

theorem answer_of_cloud {sync sync' : Synchronizer} {t : Topic} {c : Cloud}
    {answer : Except ArrivalFault Unit} (h : sync.cloud t c = some (answer, sync')) :
    answer = (sync.engine.cloud sync.now t c).1 := by
  obtain ⟨engine, -, hrest⟩ := Option.bind_eq_some_iff.1 h
  obtain ⟨_, -, hpair⟩ := Option.bind_eq_some_iff.1 hrest
  exact (Prod.mk.inj (Option.some.inj hpair)).1.symm

theorem At.arrive (h : f.At r []) (hgoing : r.ended = false) {t : Topic} {c : Cloud}
    {answer : Except ArrivalFault Unit} {sync : Synchronizer}
    (hcloud : r.synchronizer.cloud t c = some (answer, sync)) :
    f.Leads { r with
      synchronizer := sync
      summary := { r.summary with
        received := r.summary.received + 1
        rejected := r.summary.rejected + if answer.toBool then 0 else 1 } } := by
  obtain ⟨hstage, hopen, hrunning, hwhole, -⟩ := h.going hgoing
  obtain ⟨turns, hsupply⟩ := h.exists_turns hgoing
  have hcall : r.synchronizer.call (.cloud t c) = some sync := congrArg (Option.map Prod.snd) hcloud
  have hanswer := answer_of_cloud hcloud
  obtain ⟨hclosed', hrunning', hnow'⟩ := r.synchronizer.arrived_frame t c
  obtain ⟨hrested, -, turns', hevents⟩ := Synchronizer.settle_interleaved
    ((r.now, (r.synchronizer.engine.cloud r.now t c).2.turn) :: turns)
    (Synchronizer.settle_of_cloud hcall) (hclosed'.trans hopen) (hrunning'.trans hrunning)
    (hnow' ▸ hwhole)
  have hnow : sync.now = r.now := (now_settle (Synchronizer.settle_of_cloud hcall)).trans hnow'
  have harrived : f.after ((Synchronizer.Call.cloud t c).events.map .supply) =
      { f with
        supply := ⟨sync.interplay turns', f.supply.received⟩
        summary := { f.summary with
          received := f.summary.received + 1
          rejected := f.summary.rejected + if answer.toBool then 0 else 1 } } := by
    unfold Synchronizer.Call.events
    rw [List.map_append, after_append, after_arrival hstage hsupply,
      after_supply (fun _ => isInner_of_mem_settling), hanswer, ← hevents]
    rfl
  refine ⟨(Synchronizer.Call.cloud t c).events.map .supply, ?_⟩
  rw [harrived]
  exact { h with
    now_eq := rfl
    summary_eq := by
      dsimp only
      rw [h.summary_eq]
    going := fun _ =>
      ⟨hstage, hrested.post_open, hrested.running, hrested.whole, turns', rfl⟩ }

theorem At.handle (h : f.At r []) (hs : Sound s sinks limits f) {m : Inbound}
    (hhandle : r.handle m = some r') : f.Leads r' := by
  unfold Run.handle at hhandle
  split at hhandle
  · obtain rfl := Option.some.inj hhandle
    exact h.leads
  · next hended =>
    have hgoing := eq_false_of_ne_true hended
    cases m with
    | velocity v =>
      obtain rfl := Option.some.inj hhandle
      exact h.velocity hgoing v
    | cloud t c =>
      obtain ⟨⟨answer, sync⟩, hcloud, heq⟩ := Option.bind_eq_some_iff.1 hhandle
      obtain rfl := Option.some.inj heq
      exact (h.arrive hgoing hcloud).trans hs fun hat hs => hat.publishAll hs

theorem At.handleEach {ms : List Inbound} (h : f.At r []) (hs : Sound s sinks limits f)
    (hhandle : ms.foldlM Run.handle r = some r') : f.Leads r' := by
  induction ms generalizing f r with
  | nil =>
    obtain rfl := Option.some.inj hhandle
    exact h.leads
  | cons m ms ih =>
    obtain ⟨mid, hfirst, hrest⟩ := Option.bind_eq_some_iff.1 hhandle
    exact (h.handle hs hfirst).trans hs fun hat hs => ih hat hs hrest

theorem At.drain {n : Nat} (h : f.At r []) (hs : Sound s sinks limits f)
    (hdrain : r.drain n = some r') : f.Leads r' := by
  induction n generalizing f r with
  | zero =>
    obtain rfl := Option.some.inj hdrain
    exact h.leads
  | succ n ih =>
    unfold Run.drain at hdrain
    dsimp only at hdrain
    split at hdrain
    · obtain rfl := Option.some.inj hdrain
      exact h.leads
    · obtain ⟨mid, hhandle, hrest⟩ := Option.bind_eq_some_iff.1 hdrain
      obtain ⟨last, hsettle, hrest⟩ := Option.bind_eq_some_iff.1 hrest
      have hpool : f.At { r with pool := r.pool.receiveAll.2 } [] :=
        { h with going := fun hgoing => { h.going hgoing with } }
      refine (hpool.handleEach hs hhandle).trans hs fun hat hs => ?_
      refine (hat.settle hs hsettle).trans hs fun hat hs => ?_
      exact ih hat hs hrest

theorem At.work (h : f.At r []) (hs : Sound s sinks limits f) (hwork : r.work = some r') :
    f.Leads r' := by
  obtain ⟨mid, hsettle, hdrain⟩ := Option.bind_eq_some_iff.1 hwork
  exact (h.settle hs hsettle).trans hs fun hat hs => hat.drain hs hdrain

/-! ## From instant to instant -/

theorem At.stop (h : f.At r []) (c : Cause) (hcause : r.ended = false → f.stopsFor c = true) :
    f.Leads { r with ended := true } := by
  by_cases hended : r.ended = true
  · exact At.leads { h with going := nofun, halted := fun _ => h.halted hended }
  · have hgoing := eq_false_of_ne_true hended
    have hnext : f.next (.stop c) = { f with stage := .stopped c } := by
      unfold next
      rw [(h.going hgoing).stage_eq]
      exact if_pos (hcause hgoing)
    refine ⟨[.stop c], ?_⟩
    change (f.next (.stop c)).At _ []
    rw [hnext]
    exact { h with going := nofun, halted := fun _ => ⟨c, rfl⟩ }

theorem whole_nextTick (t : Instant) : nanosPerMilli ∣ nextTick t := Nat.dvd_mul_left _ _

theorem whole_of_min {ts : List Instant} {t : Instant} (h : (ts.map nextTick).min? = some t)
    (n : Instant) : nanosPerMilli ∣ max t (nextTick n) := by
  obtain ⟨due, -, rfl⟩ := List.mem_map.1 (List.min?_mem h)
  rcases Nat.le_total (nextTick due) (nextTick n) with hle | hle
  · rw [Nat.max_eq_right hle]
    exact whole_nextTick n
  · rw [Nat.max_eq_left hle]
    exact whole_nextTick due

theorem At.pass (h : f.At r []) (hgoing : r.ended = false) {now : Instant} (hnow : r.now ≤ now)
    (hwhole : nanosPerMilli ∣ now) :
    f.Leads { r with synchronizer := { r.synchronizer with now } } := by
  obtain ⟨turns, hsupply⟩ := h.exists_turns hgoing
  have hnext : (f.supply.next (.pass (now - r.now))).interplay =
      ({ r.synchronizer with now } : Synchronizer).interplay turns := by
    unfold Consumption.next
    rw [hsupply]
    change { r.synchronizer.interplay turns with now := r.now + (now - r.now) } = _
    rw [Nat.add_sub_cancel' hnow]
    rfl
  refine ⟨[.pass (now - r.now)], ?_⟩
  exact { h with
    now_eq := congrArg Interplay.now hnext
    going := fun _ => { h.going hgoing with whole := hwhole, supply_eq := ⟨turns, hnext⟩ } }

theorem At.step (h : f.At r []) (hs : Sound s sinks limits f) (hstep : r.step = some r') :
    f.Leads r' := by
  unfold Run.step at hstep
  split at hstep
  · obtain rfl := Option.some.inj hstep
    exact h.leads
  · next hended =>
    have hgoing := eq_false_of_ne_true hended
    split at hstep
    · obtain rfl := Option.some.inj hstep
      exact h.stop .shutdown fun _ => rfl
    · next t ht =>
      have hwhole := whole_of_min ht (r.now + 1)
      have hlater : r.now ≤ max t (nextTick (r.now + 1)) :=
        (Nat.le_succ _).trans ((le_nextTick _).trans (Nat.le_max_right _ _))
      refine (h.pass hgoing hlater hwhole).trans hs fun hat hs => ?_
      dsimp only at hstep
      split at hstep
      · next hdue =>
        obtain rfl := Option.some.inj hstep
        refine hat.stop .duration fun _ => ?_
        unfold stopsFor
        dsimp only
        rw [hat.limits_eq, hat.now_eq]
        exact hdue
      · exact hat.work hs hstep

theorem At.advance {n : Nat} (h : f.At r []) (hs : Sound s sinks limits f)
    (hadvance : r.advance n = some r') : f.Leads r' := by
  induction n generalizing f r with
  | zero =>
    obtain rfl := Option.some.inj hadvance
    exact h.leads
  | succ n ih =>
    unfold Run.advance at hadvance
    split at hadvance
    · obtain rfl := Option.some.inj hadvance
      exact h.leads
    · obtain ⟨mid, hstep, hrest⟩ := Option.bind_eq_some_iff.1 hadvance
      exact (h.step hs hstep).trans hs fun hat hs => ih hat hs hrest

/-- The end of a run that is over: the dispatcher takes no more sets, and all sinks are closed. -/
theorem At.finish (h : f.At r []) (hs : Sound s sinks limits f) (hended : r.ended = true) :
    ∃ xs, (f.after xs).dispatch.Finished ∧ (f.after xs).result = r.finish.1 := by
  obtain ⟨c, hstage⟩ := h.halted hended
  have hnext : f.next .hangUp = { f with dispatch := f.dispatch.next .endInput } := by
    unfold next
    rw [hstage, h.handoff_empty]
    rfl
  have hended' := Dispatch.next_endInput h.receiving
  have hfed : (f.dispatch.next .endInput).Fed r.dispatcher.lines := by
    rw [hended']
    exact h.fed
  obtain ⟨xs, hown, hfinished, hreport⟩ := hfed.finish (hs.dispatch.next .endInput) h.prompt
    (by rw [hended']) r.surroundings
  have hafter : f.after (.hangUp :: xs.map .serve) =
      { f with dispatch := (f.dispatch.next .endInput).after xs } := by
    change (f.next .hangUp).after (xs.map .serve) = _
    rw [after_serve hown, hnext]
  refine ⟨.hangUp :: xs.map .serve, ?_, ?_⟩
  · rw [hafter]
    exact hfinished
  · rw [hafter]
    unfold result Run.finish
    dsimp only
    rw [hreport, h.summary_eq, ← h.now_eq]
    rfl

/-! ## Runs of a blueprint -/

/-- What a run of a blueprint begins with. -/
structure Begun (b : Blueprint) (limits : RunLimits) (r : Run) : Prop where
  synchronizer_eq :
    r.synchronizer = ⟨.ofSettings b.synchronizer (.ofTransforms b.frames), .idle, 0⟩
  feeds_eq : r.dispatcher.lines.map (·.feed) =
    b.sinks.map fun p => .ofCapacity p.name p.capacity
  prompt : ∀ l ∈ r.dispatcher.lines, l.outlet.isPrompt = true
  limits_eq : r.limits = limits
  going : r.ended = false
  summary_eq : ∃ sources sinks, r.summary = { sources, sinks }

variable {b : Blueprint} {n : Nat} {d d' : Disk}

theorem begun_of_begin (h : Run.begin b limits n d = (.ok r, d')) : Begun b limits r := by
  unfold Run.begin at h
  split at h
  · exact absurd (Prod.mk.inj h).1 nofun
  split at h
  · exact absurd (Prod.mk.inj h).1 nofun
  next hstart =>
  split at h
  · exact absurd (Prod.mk.inj h).1 nofun
  next hplans =>
  obtain rfl := Except.ok.inj (Prod.mk.inj h).1
  have hopen := congrArg Prod.fst hplans
  have hopens := Dispatcher.opens_of_ofPlans hopen
  exact ⟨(Synchronizer.start_eq_ok_iff.1 hstart).2, SinkLine.feeds_of_opens hopens,
    SinkLine.prompt_of_opens hopens, rfl, rfl, ⟨_, _, rfl⟩⟩

namespace Begun

theorem dispatch_eq (h : Begun b limits r) :
    (ofRun r).dispatch = .ofSinks (b.sinks.map fun p => (p.name, p.capacity)) := by
  have hfeeds := congrArg (List.map Lane.ofFeed) h.feeds_eq
  rw [List.map_map, List.map_map] at hfeeds
  unfold ofRun Dispatch.ofSinks
  rw [List.map_map]
  exact congrArg (fun lanes => { lanes : Dispatch }) hfeeds

theorem sound (h : Begun b limits r) :
    Sound b.synchronizer (b.sinks.map fun p => (p.name, p.capacity)) limits (ofRun r) := by
  obtain ⟨sources, sinks, hsummary⟩ := h.summary_eq
  have hledger : (ofRun r).supply.Ledger b.synchronizer := by
    unfold ofRun
    rw [h.synchronizer_eq]
    exact Consumption.Ledger.ofTransformer b.synchronizer _ .middle
  have hsummary' : (ofRun r).summary = { sources, sinks } := hsummary
  exact {
    ledger := hledger
    dispatch := h.dispatch_eq ▸ Dispatch.sound_ofSinks _
    limits_eq := h.limits_eq
    handoff_open := rfl
    taken := rfl
    published_eq := by
      rw [hsummary']
      rfl
    total_eq := by rw [hsummary']
    kinds_eq := by
      rw [hsummary']
      rfl
    rejected_le := by rw [hsummary']
    within := fun m _ => by
      rw [hsummary']
      exact Nat.lt_of_lt_of_le Nat.zero_lt_one (Nat.le_max_right m 1)
    hung := fun hended => by
      obtain ⟨n, hphase⟩ := hended
      exact hphase.elim nofun nofun }

theorem at_ofRun (h : Begun b limits r) : (ofRun r).At r [] where
  now_eq := rfl
  summary_eq := rfl
  limits_eq := rfl
  fed := List.map_map
  prompt := h.prompt
  receiving := rfl
  handoff_empty := rfl
  handoff_room := Nat.lt_of_lt_of_le Nat.zero_lt_one (Nat.le_max_right _ 1)
  going := fun _ =>
    { stage_eq := rfl
      post_open := by
        rw [h.synchronizer_eq]
        rfl
      running := by
        rw [h.synchronizer_eq]
        rfl
      whole := by
        change nanosPerMilli ∣ r.synchronizer.now
        rw [h.synchronizer_eq]
        exact Nat.dvd_zero _
      supply_eq := ⟨[], rfl⟩ }
  halted := fun hover => absurd (h.going.symm.trans hover) nofun

end Begun

/-- A run that comes to its end is one of the interleavings of its parts. -/
theorem finish_interleaved (hbegin : Run.begin b limits n d = (.ok r, d')) {k : Nat}
    (hadvance : r.advance k = some r') (hended : r'.ended = true) :
    ∃ xs, ((ofRun r).after xs).dispatch.Finished ∧ ((ofRun r).after xs).result = r'.finish.1 := by
  have hbegun := begun_of_begin hbegin
  have hs := hbegun.sound
  obtain ⟨xs, hat⟩ := hbegun.at_ofRun.advance hs hadvance
  obtain ⟨ys, hfinished, hresult⟩ := hat.finish (hs.after xs) hended
  rw [← after_append] at hfinished hresult
  exact ⟨xs ++ ys, hfinished, hresult⟩

end Flow

end LidarSync
