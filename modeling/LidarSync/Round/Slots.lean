import LidarSync.Blueprint.Basic
import LidarSync.Cloud.Basic
import LidarSync.SyncedSet

/-!
# Slots

The clouds of the round in progress, one slot a topic. A second cloud of a topic in one round is
kept aside for the next one; the later one counts. A round is complete when every slot is filled.
-/

namespace LidarSync

abbrev TopicSlots := Keyed (Option Cloud)

namespace TopicSlots

def empty (topics : List Topic) : TopicSlots := Keyed.ofList (topics.map (·, none))

def full (s : TopicSlots) : Bool := s.all (·.2.isSome)

def vacant (s : TopicSlots) : Bool := s.all (·.2.isNone)

/-- The topics whose slot is not filled, in order. -/
def waiting (s : TopicSlots) : List Topic := (s.filter (·.2.isNone)).map Prod.fst

def filled (s : TopicSlots) : Nat := (s.filter (·.2.isSome)).length

/-- Fills the slot of a topic that has one. -/
def fill (t : Topic) (c : Cloud) (s : TopicSlots) : TopicSlots :=
  s.map fun (name, old) => (name, if name = t then some c else old)

/-- The clouds of the second argument, where it has them, over those of the first. -/
def overlay (s top : TopicSlots) : TopicSlots :=
  s.map fun (name, old) => (name, ((top.lookup name).getD none).or old)

end TopicSlots

/-- What an arrival means for the round in progress: it is complete, or it goes on, with a deadline
in a number of seconds if one is to be set. -/
inductive Arrival where
  | complete
  | pending (rearm : Option Float)

/-- The slots of the round in progress, and what is kept aside for the next one. -/
structure Collector where
  topics : List Topic
  offsets : Keyed Float
  timeout : Float
  current : TopicSlots
  overflow : TopicSlots
  /-- The topics that the last round lacked. -/
  notSynchronized : List Topic

namespace Collector

def ofSettings (s : SyncSettings) : Collector where
  topics := s.inputTopics
  offsets := s.offsetOf
  timeout := s.timeout
  current := .empty s.inputTopics
  overflow := .empty s.inputTopics
  notSynchronized := ascending s.inputTopics

def contains (c : Collector) (t : Topic) : Bool := Keyed.contains c.current t

/-- The deadline that the first cloud of a topic asks for: the timeout less the usual lateness of
the topic, if latenesses are configured. -/
def firstRearm (c : Collector) (t : Topic) : Option Float :=
  if c.offsets.isEmpty then none else some (c.timeout - (c.offsets.get? t).getD 0)

/-- Takes a cloud in; there is no answer for a topic without a slot. -/
def arrive (c : Collector) (t : Topic) (cloud : Cloud) : Option (Arrival × Collector) :=
  match Keyed.get? c.current t with
  | none => none
  | some (some _) =>
    let rearm := if c.overflow.vacant then some c.timeout else none
    some (.pending rearm, { c with overflow := c.overflow.fill t cloud })
  | some none =>
    let current := c.current.fill t cloud
    let arrival := if current.full then .complete else .pending (c.firstRearm t)
    some (arrival, { c with current })

/-- Closes the round: hands out the slots and goes on with what was kept aside. A complete round
takes what was kept aside with it. -/
def close (c : Collector) (trigger : Trigger) : TopicSlots × Collector :=
  let unfilled := TopicSlots.empty c.topics
  match trigger with
  | .complete => (c.current.overlay c.overflow, { c with current := unfilled, overflow := unfilled })
  | .timeout => (c.current, { c with current := c.overflow, overflow := unfilled })

/-- The topics that the round in progress still waits for, in order. -/
def pending (c : Collector) : List Topic := c.current.waiting

end Collector

end LidarSync
