import LidarSync.Outbox
import LidarSync.Sink.Tally

/-!
# Feeds

A feed is a bounded queue in front of a sink, with a worker that takes set after set off the queue
and has the sink write it. A set that finds the queue full is dropped. `Feed.offer` is the side of
the sender, `Feed.settle` lets the worker do all that it can.
-/

namespace LidarSync

/-- How far a sink gets with a set. -/
inductive Progress (σ : Type) where
  /-- The set is written, or writing it failed. -/
  | finished (ok : Bool) (s : σ)
  /-- The sink has to wait before it can go on with the set. -/
  | waiting (s : σ)
  | broken (s : σ)

/-- What a sink does, given what it works on. -/
structure Sink (σ : Type) where
  write : SyncedSet → σ → Progress σ
  close : σ → σ

/-- A queue in front of a sink, and its worker. -/
structure Feed where
  name : String
  queue : Outbox SyncedSet
  /-- The set that the worker has taken off the queue and not finished. -/
  current : Option SyncedSet := none
  /-- Whether no more sets will be offered. -/
  closing : Bool := false
  stopped : Bool := false
  tally : SinkTally := {}

namespace Feed

def ofCapacity (name : String) (n : Nat) : Feed := { name, queue := .ofCapacity n }

def offer (f : Feed) (s : SyncedSet) : Sent × Feed :=
  match f.queue.send s with
  | (.queued, queue) => (.queued, { f with queue, tally := f.tally.note queue.waiting.length })
  | (.full, _) => (.full, { f with tally := f.tally.drop })
  | (.closed, _) => (.closed, f)

/-- The set that the worker writes next: the unfinished one, or else the oldest of the queue. -/
def next (f : Feed) : Option (SyncedSet × Feed) :=
  match f.current with
  | some s => some (s, f)
  | none =>
    match f.queue.receive with
    | (none, _) => none
    | (some s, queue) =>
      some (s, { f with queue, current := some s, tally := f.tally.note queue.waiting.length })

def finish (f : Feed) (ok : Bool) : Feed := { f with current := none, tally := f.tally.wrote ok }

/-- The worker is gone, and with it the set in its hands and the queue. -/
def collapse (f : Feed) : Feed :=
  { f with queue := f.queue.drop, current := none, stopped := true }

def backlog (f : Feed) : Nat := f.queue.waiting.length + if f.current.isSome then 1 else 0

/-- Lets the worker write up to a number of sets. -/
def work {σ : Type} (sink : Sink σ) : Nat → Feed → σ → Feed × σ
  | 0, f, x => (f, x)
  | n + 1, f, x =>
    match f.next with
    | none => (f, x)
    | some (s, f) =>
      match sink.write s x with
      | .finished ok x => work sink n (f.finish ok) x
      | .waiting x => (f, x)
      | .broken x => (f.collapse, x)

/-- The worker ends its work when nothing is left and nothing will come. -/
def rest {σ : Type} (sink : Sink σ) (f : Feed) (x : σ) : Feed × σ :=
  if f.closing && !f.stopped && f.backlog == 0 then
    ({ f with stopped := true, tally := f.tally.note 0 }, sink.close x)
  else (f, x)

def settle {σ : Type} (sink : Sink σ) (f : Feed) (x : σ) : Feed × σ :=
  let (f, x) := f.work sink f.backlog x
  f.rest sink x

def close (f : Feed) : Feed := { f with closing := true }

end Feed

end LidarSync
