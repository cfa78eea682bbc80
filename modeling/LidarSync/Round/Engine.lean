import LidarSync.Blueprint.Valid
import LidarSync.Cloud.Packed
import LidarSync.Metrics.Recorder
import LidarSync.Motion.Compensator
import LidarSync.Outbox
import LidarSync.Round.Alignment
import LidarSync.Round.Deadline
import LidarSync.Round.Scheduler

/-!
# The engine

The state behind a synchronizer, and what arrivals, velocity reports and deadlines do to it. A cloud
fills a slot; a full round is closed at once, any other one at its deadline. Closing a round aligns
its clouds, renews the diagnostics and sends the set to the output queue, where it is dropped if
there is no room.
-/

namespace LidarSync

/-- Everything a synchronizer knows. -/
structure Engine where
  settings : SyncSettings
  transformer : Transformer ReprojectFault
  compensator : Compensator
  collector : Collector
  deadline : Deadline
  /-- The number of the next round, and so how many rounds there have been. -/
  rounds : Nat
  lastPublish : Option Instant
  diagnostics : Diagnostics
  output : Outbox SyncedSet
  metrics : Recorder

/-- A round that was closed: by what, with which slots, and the set that it published. A round that
was lost published none. -/
structure ClosedRound where
  trigger : Trigger
  slots : TopicSlots
  set? : Option SyncedSet

/-- What becomes of the round in progress. -/
inductive Turn where
  /-- It goes on, under the deadline that it had. -/
  | kept
  /-- It goes on under a new deadline. -/
  | armed (due : Instant)
  | closed (round : ClosedRound)

/-- The deadline that an arrival has the engine post, if it changes. -/
def Turn.post : Turn → Option Deadline
  | kept => none
  | armed due => some (some due)
  | closed _ => some none

/-- An engine after something happened to it, and what became of its round. -/
structure Taken where
  engine : Engine
  turn : Turn

/-- The engine, unless a round was lost. -/
def Taken.engine? (x : Taken) : Option Engine :=
  match x.turn with
  | .closed r => r.set?.map fun _ => x.engine
  | _ => some x.engine

/-- Why a cloud is turned away. -/
inductive ArrivalFault where
  | malformed (frame : String) (fault : CloudFault)
  | unknownTopic (topic : Topic)

def ArrivalFault.message : ArrivalFault → String
  | malformed frame fault => s!"malformed cloud in frame '{frame}': {fault.message}"
  | unknownTopic topic => s!"unknown input topic '{topic}'"

/-- The reason under which a fault is counted. -/
def ArrivalFault.rejection : ArrivalFault → Rejection
  | malformed _ _ => .malformed
  | unknownTopic _ => .unknownTopic

/-- The time from one instant to a later one in milliseconds. -/
def millisecondsBetween (start stop : Instant) : Float := secondsOf (stop - start) * 1000

namespace Engine

/-- A new engine over any way of moving clouds and of searching the velocity history. -/
def ofTransformer (s : SyncSettings) (m : Transformer ReprojectFault) (b : Halving Float) : Engine :=
  let collector := Collector.ofSettings s
  { settings := s
    transformer := m
    compensator := { history := { halving := b } }
    collector
    deadline := none
    rounds := 0
    lastPublish := none
    diagnostics := .ofMissing s.inputTopics collector.notSynchronized
    output := .ofCapacity s.queueSize
    metrics := .empty }

def ofSettings (s : SyncSettings) (g : FrameGraph Float) : Engine :=
  ofTransformer s g.transformer .middle

def velocity (e : Engine) (v : Velocity Float) : Engine :=
  { e with
    compensator := e.compensator.record v
    metrics := e.metrics.tick Series.velocitySamples }

def noteTruncations (e : Engine) (n : Nat) : Engine :=
  if n = 0 then e
  else { e with
    compensator := e.compensator.note n
    metrics := e.metrics.count Series.truncations n }

/-- The motion between two instants. There is no answer where the history has none. -/
def compensate (e : Engine) (start stop : Float) : Option (Pose Float × Engine) :=
  (e.compensator.history.compensate start stop).map fun r =>
    (r.pose, e.noteTruncations (if r.truncated then 1 else 0))

/-- The set that a closed round publishes. -/
def setOf (e : Engine) (now : Instant) (trigger : Trigger) (r : AlignedRound) : SyncedSet where
  roundId := e.rounds
  reference := r.reference
  frame := e.settings.outputFrame
  clouds := r.clouds
  details :=
    { trigger
      missing := r.missing
      failed := r.failed
      corrections := r.corrections
      processingMs := 0
      cycleMs := match e.lastPublish with
        | some last => millisecondsBetween last now
        | none => 0
      diagnostics := .ofMissing e.settings.inputTopics r.notSynchronized }

/-- Sends a set to the output queue; one that finds no room is counted. -/
def publish (e : Engine) (s : SyncedSet) : Engine :=
  match e.output.send s with
  | (.full, q) => { e with output := q, metrics := e.metrics.tick Series.outputDropped }
  | (_, q) => { e with output := q }

/-- Closes the round in progress. First the slots are handed out; where the history has no answer for
one of the corrections, nothing more happens, and the round is lost. -/
def closeRound (e : Engine) (now : Instant) (trigger : Trigger) : Taken :=
  let (slots, collector) := e.collector.close trigger
  match slots.alignWith e.transformer e.settings.outputFrame e.compensator.history with
  | none => ⟨{ e with collector }, .closed ⟨trigger, slots, none⟩⟩
  | some aligned =>
    let s := e.setOf now trigger aligned
    let e := e.noteTruncations aligned.truncations
    let e := { e with
      collector := { collector with notSynchronized := aligned.notSynchronized }
      rounds := e.rounds + 1
      lastPublish := some now
      diagnostics := s.details.diagnostics
      metrics := e.metrics.round s }
    ⟨e.publish s, .closed ⟨trigger, slots, some s⟩⟩

/-- The packed form of a cloud, if it can be taken in on a topic. -/
def accept (e : Engine) (t : Topic) (c : Cloud) : Except ArrivalFault Cloud :=
  match c.packed with
  | .error fault => .error (.malformed c.frame fault)
  | .ok packed => if e.collector.contains t then .ok packed else .error (.unknownTopic t)

/-- Takes in a packed cloud on a topic that has a slot. -/
def takeIn (e : Engine) (now : Instant) (t : Topic) (c : Cloud) : Taken :=
  let e := { e with metrics := e.metrics.tick (Series.cloudsReceived t) }
  match e.collector.arrive t c with
  | none => ⟨e, .kept⟩
  | some (.complete, collector) => { e with collector, deadline := none }.closeRound now .complete
  | some (.pending (some secs), collector) =>
    let due := now + delayOf secs
    ⟨{ e with collector, deadline := some due }, .armed due⟩
  | some (.pending none, collector) => ⟨{ e with collector }, .kept⟩

def cloud (e : Engine) (now : Instant) (t : Topic) (c : Cloud) : Except ArrivalFault Unit × Taken :=
  match e.accept t c with
  | .error fault =>
    let metrics := e.metrics.tick (Series.cloudsRejected t fault.rejection)
    (.error fault, ⟨{ e with metrics }, .kept⟩)
  | .ok packed => (.ok (), e.takeIn now t packed)

/-- An attempt to close the round because of its deadline. -/
def fire (e : Engine) (now : Instant) : FireOutcome × Taken :=
  if e.deadline.isDue now then (.fired, { e with deadline := none }.closeRound now .timeout)
  else (.idle, ⟨e, .kept⟩)

/-- An attempt as the deadline task makes it; there is no answer where a round is lost. -/
def attempt (now : Instant) (e : Engine) : Option (FireOutcome × Engine) :=
  let (outcome, taken) := e.fire now
  taken.engine?.map (outcome, ·)

end Engine

end LidarSync
