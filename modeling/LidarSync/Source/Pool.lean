import LidarSync.Keyed
import LidarSync.Outbox
import LidarSync.Source.Basic

/-!
# Source pools

The sources of a node deliver into one bounded channel. A source that finds the channel full waits
with its message in hand until there is room, and then catches up with its schedule. Sources that
become due together deliver in the order in which they began to wait.
-/

namespace LidarSync

/-- How many messages have been delivered. -/
structure DeliveryCounts where
  clouds : Nat := 0
  velocity : Nat := 0
  failures : Nat := 0
deriving DecidableEq, Repr

def DeliveryCounts.add (c : DeliveryCounts) : Inbound → DeliveryCounts
  | .cloud _ _ => { c with clouds := c.clouds + 1 }
  | .velocity _ => { c with velocity := c.velocity + 1 }

/-- Sources and the channel into which they deliver. -/
structure SourcePool where
  /-- The source of velocity reports, if there is one, and those of clouds by topic. -/
  sources : List Source
  channel : Outbox Inbound
  /-- The sources that are started and not stopped, by their topics. -/
  running : List (Option Topic) := []
  /-- Deliveries that wait for their time, those first that have waited longest. -/
  idle : List SourceTask := []
  /-- Deliveries that wait for room, each with its message, those first that have waited longest. -/
  blocked : List (SourceTask × Inbound) := []
  counts : DeliveryCounts := {}

namespace SourcePool

/-- Checks the enabled sources of clouds in order. A later source of a topic replaces an earlier
one. -/
def cloudSources : List CloudSource → Keyed Source → Except SourceFault (Keyed Source)
  | [], m => .ok m
  | c :: rest, m =>
    if c.enabled then do
      c.toSource.check
      cloudSources rest (m.insert c.topic c.toSource)
    else cloudSources rest m

/-- The sources that a blueprint describes, none of them started. -/
def ofSources (s : Sources) (capacity : Nat) : Except SourceFault SourcePool := do
  let clouds ← cloudSources s.clouds []
  let velocity := s.velocity.toList.map VelocitySource.toSource
  velocity.forM Source.check
  return { sources := velocity ++ clouds.map Prod.snd, channel := .ofCapacity capacity }

def topics (p : SourcePool) : List Topic := p.sources.filterMap (·.topic?)

def isRunning (p : SourcePool) (topic? : Option Topic) : Bool := p.running.contains topic?

/-- Marks a source as stopped. A delivery under way notices that when it is next due. -/
def stop (p : SourcePool) (topic? : Option Topic) : SourcePool :=
  { p with running := p.running.filter (· ≠ topic?) }

def stopAll (p : SourcePool) : SourcePool := { p with running := [], idle := [], blocked := [] }

def start (p : SourcePool) (s : Source) (clock : SourceClock) (now : Instant) :
    Except SourceFault SourcePool :=
  if p.isRunning s.topic? then .error (.alreadyRunning s.name)
  else .ok { p with
    running := s.topic? :: p.running
    idle := p.idle ++ (SourceTask.start? s clock now).toList }

def startAll (p : SourcePool) (clock : SourceClock) (now : Instant) : SourcePool :=
  p.sources.foldl (fun p s => (p.start s clock now).toOption.getD p) p

def deliver (p : SourcePool) (m : Inbound) : SourcePool :=
  { p with channel := (p.channel.send m).2, counts := p.counts.add m }

def lose (p : SourcePool) (t : SourceTask) : SourcePool :=
  let p := p.stop t.source.topic?
  { p with counts := { p.counts with failures := p.counts.failures + 1 } }

/-- Lets a delivery go on until it has to wait or ends. Of the room in the channel some may be
promised to others. -/
def run (now : Instant) (promised : Nat) (t : SourceTask) (p : SourcePool) : SourcePool :=
  if t.due ≤ now then
    if p.isRunning t.source.topic? then
      if p.channel.closed then p.lose t
      else if p.channel.waiting.length + promised < p.channel.capacity then
        run now promised t.next (p.deliver (t.message now))
      else { p with blocked := p.blocked ++ [(t, t.message now)] }
    else p
  else { p with idle := p.idle ++ [t] }
termination_by now + 1 - t.due
decreasing_by
  exact Nat.sub_lt_sub_left (Nat.lt_succ_of_le ‹t.due ≤ now›) (Nat.lt_add_of_pos_right t.period_pos)

/-- Lets deliveries go on to each of which room is promised. One whose source has been stopped ends
with the message that it had in hand. -/
def release (now : Instant) : List (SourceTask × Inbound) → SourcePool → SourcePool
  | [], p => p
  | (t, m) :: rest, p =>
    let p := p.deliver m
    release now rest (if p.isRunning t.source.topic? then run now rest.length t.next p else p)

/-- Lets the deliveries go on that waited for room, as far as there is room. -/
def settleBlocked (p : SourcePool) (now : Instant) : SourcePool :=
  let waiting := p.blocked
  if p.channel.closed then waiting.foldl (fun p (t, _) => p.lose t) { p with blocked := [] }
  else
    let room := p.channel.capacity - p.channel.waiting.length
    release now (waiting.take room) { p with blocked := waiting.drop room }

/-- Lets all deliveries do what they can at an instant. -/
def settle (p : SourcePool) (now : Instant) : SourcePool :=
  let p := p.settleBlocked now
  let (ready, idle) := p.idle.partition (·.due ≤ now)
  ready.foldl (fun p t => p.run now 0 t) { p with idle }

def receive (p : SourcePool) : Option Inbound × SourcePool :=
  let (m, channel) := p.channel.receive
  (m, { p with channel })

def receiveAll (p : SourcePool) : List Inbound × SourcePool :=
  (p.channel.waiting, { p with channel := { p.channel with waiting := [] } })

def dropReceiver (p : SourcePool) : SourcePool := { p with channel := p.channel.drop }

end SourcePool

end LidarSync
