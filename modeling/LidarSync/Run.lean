import LidarSync.Metrics.RunSummary
import LidarSync.Round.Synchronizer
import LidarSync.Sink.Dispatcher
import LidarSync.Source.Pool

/-!
# Runs

A run ties everything together: sources deliver into a channel, the synchronizer takes what they
deliver, and the dispatcher passes the sets on to the sinks. The clock jumps from one whole
millisecond at which something is due to the next; at each of them everything happens that can. A
run is over when it has published as many rounds as it may, or when its time has come.
-/

namespace LidarSync

/-- When a run is over. -/
structure RunLimits where
  rounds? : Option Nat := none
  stop? : Option Instant := none

/-- Why a run cannot begin. -/
inductive RunFault where
  | sources (f : SourceFault)
  | synchronizer (v : Violation)
  | sinks (f : DispatchFault)

/-- The fault in words: what could not be done, and why, down to the root of it. -/
def RunFault.messages : RunFault → List String
  | sources f => ["Failed to build mock sources", f.message]
  | synchronizer v => ["Failed to start time synchronizer", v.message]
  | sinks f => ["Failed to create dispatcher", f.message] ++ f.cause?.toList

/-- A run at an instant. -/
structure Run where
  pool : SourcePool
  synchronizer : Synchronizer
  dispatcher : Dispatcher
  surroundings : Surroundings
  limits : RunLimits
  summary : RunSummary
  ended : Bool := false

namespace Run

/-- Begins a run of a blueprint. What setting up the sinks has made on the disk stays. -/
def begin (b : Blueprint) (limits : RunLimits) (bufferSize : Nat) (d : Disk) :
    Except RunFault Run × Disk :=
  match SourcePool.ofSources b.sources bufferSize with
  | .error f => (.error (.sources f), d)
  | .ok pool =>
    match Synchronizer.start b.synchronizer (.ofTransforms b.frames) with
    | .error v => (.error (.synchronizer v), d)
    | .ok synchronizer =>
      match Dispatcher.ofPlans b.sinks [] d with
      | (.error f, d) => (.error (.sinks f), d)
      | (.ok dispatcher, d) =>
        (.ok {
          pool := pool.startAll ⟨0, 0⟩ 0
          synchronizer
          dispatcher
          surroundings := { disk := d }
          limits
          summary := { sources := pool.sources.length, sinks := b.sinks.length } }, d)

def now (r : Run) : Instant := r.synchronizer.now

def publish (r : Run) (s : SyncedSet) : Run :=
  if r.ended then r
  else
    let published := r.summary.published + 1
    { r with
      summary := { r.summary with published, rounds := r.summary.rounds.add s }
      dispatcher := r.dispatcher.offer s
      ended := r.limits.rounds?.any (· ≤ published) }

def publishAll (r : Run) : Run :=
  let sets := r.synchronizer.engine.output.waiting
  let synchronizer := sets.foldl (fun s _ => s.receive.2) r.synchronizer
  sets.foldl publish { r with synchronizer }

/-- Passes a message to the synchronizer, unless the run is over. -/
def handle (r : Run) (m : Inbound) : Option Run :=
  if r.ended then some r
  else match m with
    | .velocity v =>
      some { r with
        synchronizer := r.synchronizer.velocity v
        summary := { r.summary with velocitySamples := r.summary.velocitySamples + 1 } }
    | .cloud t c => do
      let (answer, synchronizer) ← r.synchronizer.cloud t c
      let rejected := r.summary.rejected + if answer.toBool then 0 else 1
      let summary := { r.summary with received := r.summary.received + 1, rejected }
      return { r with synchronizer, summary }.publishAll

def settle (r : Run) : Option Run := do
  let (dispatcher, surroundings) := r.dispatcher.settle r.surroundings
  let synchronizer ← r.synchronizer.settle
  return { r with dispatcher, surroundings, synchronizer, pool := r.pool.settle r.now }.publishAll

/-- How many messages the deliveries of a pool still make at an instant, at most. -/
def outstanding (p : SourcePool) (now : Instant) : Nat :=
  let due := fun t : SourceTask => if t.due ≤ now then (now - t.due) / t.period + 1 else 0
  let fromIdle := p.idle.foldl (fun total t => total + due t) 0
  let fromBlocked := p.blocked.foldl (fun total (t, _) => total + due t + 1) 0
  p.channel.waiting.length + fromIdle + fromBlocked

/-- Takes message after message, at most as many times as there are messages. -/
def drain : Nat → Run → Option Run
  | 0, r => some r
  | n + 1, r =>
    let (ms, pool) := r.pool.receiveAll
    if r.ended ∨ ms.isEmpty then some r
    else do
      let r ← ms.foldlM handle { r with pool }
      drain n (← r.settle)

/-- Does everything that can be done at the instant of a run. -/
def work (r : Run) : Option Run := do
  let r ← r.settle
  r.drain (outstanding r.pool r.now)

def nextInstant? (r : Run) : Option Instant :=
  let sources := r.pool.idle.map (·.due)
  let deadline := r.synchronizer.scheduler.waitsFor.toList
  ((sources ++ deadline ++ r.limits.stop?.toList).map nextTick).min?

/-- Goes on to the next instant. The run is over when its time has come, and also when nothing will
ever be due. -/
def step (r : Run) : Option Run :=
  if r.ended then some r
  else match r.nextInstant? with
    | none => some { r with ended := true }
    | some t =>
      let now := max t (nextTick (r.now + 1))
      let r := { r with synchronizer := { r.synchronizer with now } }
      if r.limits.stop?.any (· ≤ r.now) then some { r with ended := true } else r.work

def advance : Nat → Run → Option Run
  | 0, r => some r
  | n + 1, r => if r.ended then some r else do advance n (← r.step)

/-- Ends a run: the sinks write what still waits for them. -/
def finish (r : Run) : RunSummary × Surroundings :=
  let (dispatcher, surroundings) := r.dispatcher.close r.surroundings
  ({ r.summary with elapsed := r.now, deliveries := dispatcher.report }, surroundings)

end Run

end LidarSync
