import LidarSync.Blueprint.Basic
import LidarSync.Sink.Archive
import LidarSync.Sink.Channel
import LidarSync.Sink.RoundLog

/-!
# The dispatcher

The dispatcher offers every set to every sink, each behind a feed of its own, so that a sink that is
slow, full or failing takes nothing away from the others. `Dispatcher.ofPlans` opens the sinks of a
blueprint, `Dispatcher.offer` fans a set out, `Dispatcher.settle` lets the workers do all that they
can, and `Dispatcher.close` ends their work.
-/

namespace LidarSync

/-- Why the sinks of a dispatcher cannot be opened. -/
inductive DispatchFault where
  | duplicate (name : String)
  | zeroCapacity (name : String)
  | setup (name : String) (fault : DiskFault)
deriving DecidableEq, Repr

def DispatchFault.message : DispatchFault → String
  | duplicate name => s!"duplicate sink name '{name}'"
  | zeroCapacity name => s!"sink '{name}' needs queue_capacity > 0"
  | setup name _ => s!"sink '{name}' could not be created"

def DispatchFault.cause? : DispatchFault → Option String
  | setup _ fault => some fault.message
  | _ => none

/-- What all sinks write to. -/
structure Surroundings where
  disk : Disk
  log : List LogEvent := []

/-- A sink of one of the known kinds. -/
inductive Outlet where
  | log
  | archive (a : Archive)
  | channel (c : Channel)

def Progress.map {σ τ : Type} (f : σ → τ) : Progress σ → Progress τ
  | finished ok x => .finished ok (f x)
  | waiting x => .waiting (f x)
  | broken x => .broken (f x)

namespace Outlet

/-- How a sink of a known kind writes a set. -/
def write (name : String) (s : SyncedSet) : Outlet × Surroundings → Progress (Outlet × Surroundings)
  | (.log, w) => ((logSink name).write s w.log).map fun log => (.log, { w with log })
  | (.archive a, w) => (a.sink.write s w.disk).map fun disk => (.archive a, { w with disk })
  | (.channel c, w) => (Channel.sink.write s c).map fun c => (.channel c, w)

/-- How a sink of a known kind ends its work. -/
def close (name : String) : Outlet × Surroundings → Outlet × Surroundings
  | (.log, w) => (.log, { w with log := (logSink name).close w.log })
  | (.archive a, w) => (.archive a, { w with disk := a.sink.close w.disk })
  | (.channel c, w) => (.channel (Channel.sink.close c), w)

/-- A sink of a known kind, with the name under which it logs. -/
def sink (name : String) : Sink (Outlet × Surroundings) where
  write s := write name s
  close := close name

end Outlet

/-- A sink and the feed in front of it. -/
structure SinkLine where
  feed : Feed
  outlet : Outlet

namespace SinkLine

def ofCapacity (name : String) (capacity : Nat) (outlet : Outlet) : SinkLine :=
  ⟨.ofCapacity name capacity, outlet⟩

/-- Lets the worker of a sink do all that it can. -/
def settle (l : SinkLine) (w : Surroundings) : SinkLine × Surroundings :=
  let (feed, outlet, w) := l.feed.settle (Outlet.sink l.feed.name) (l.outlet, w)
  (⟨feed, outlet⟩, w)

/-- Lets the workers of sinks do all that they can, one sink after the other. -/
def settleAll : List SinkLine → Surroundings → List SinkLine × Surroundings
  | [], w => ([], w)
  | l :: rest, w =>
    let (l, w) := l.settle w
    let (rest, w) := settleAll rest w
    (l :: rest, w)

def offer (l : SinkLine) (s : SyncedSet) : SinkLine := { l with feed := (l.feed.offer s).2 }

def close (l : SinkLine) : SinkLine := { l with feed := l.feed.close }

def ofPlan (p : SinkPlan) (d : Disk) : Except DispatchFault SinkLine × Disk :=
  if p.capacity = 0 then (.error (.zeroCapacity p.name), d)
  else match p.kind with
    | .log => (.ok (.ofCapacity p.name p.capacity .log), d)
    | .file =>
      let a := Archive.ofParams p.params
      match a.setUp d with
      | (.ok (), d) => (.ok (.ofCapacity p.name p.capacity (.archive a)), d)
      | (.error e, d) => (.error (.setup p.name e), d)

/-- Opens the sinks of a blueprint in order, given the names in use. What has been made on the disk
before a fault stays. -/
def ofPlans (used : List String) :
    List SinkPlan → Disk → Except DispatchFault (List SinkLine) × Disk
  | [], d => (.ok [], d)
  | p :: rest, d =>
    if p.name ∈ used then (.error (.duplicate p.name), d)
    else match ofPlan p d with
      | (.error e, d) => (.error e, d)
      | (.ok l, d) =>
        match ofPlans (p.name :: used) rest d with
        | (.error e, d) => (.error e, d)
        | (.ok ls, d) => (.ok (l :: ls), d)

end SinkLine

/-- The sinks of a run, in order, and what has been published. -/
structure Dispatcher where
  lines : List SinkLine
  metrics : Recorder := .empty

namespace Dispatcher

/-- The first name in a list that is in use or was there before. -/
def repeatedName? (used : List String) : List String → Option String
  | [] => none
  | n :: rest => if n ∈ used then some n else repeatedName? (n :: used) rest

/-- Opens the sinks of a blueprint and adds sinks that are open already. -/
def ofPlans (plans : List SinkPlan) (extra : List SinkLine) (d : Disk) :
    Except DispatchFault Dispatcher × Disk :=
  match SinkLine.ofPlans [] plans d with
  | (.error e, d) => (.error e, d)
  | (.ok lines, d) =>
    match repeatedName? (plans.map (·.name)) (extra.map (·.feed.name)) with
    | some n => (.error (.duplicate n), d)
    | none => (.ok { lines := lines ++ extra }, d)

def offer (d : Dispatcher) (s : SyncedSet) : Dispatcher where
  lines := d.lines.map (·.offer s)
  metrics := s.published.foldl (fun r (t, _) => r.tick (.cloudsPublished t)) d.metrics

def settle (d : Dispatcher) (w : Surroundings) : Dispatcher × Surroundings :=
  let (lines, w) := SinkLine.settleAll d.lines w
  ({ d with lines }, w)

/-- Ends the work of the sinks from a number of them on, one after the other. Whenever one is told
to end, all workers do what they can. -/
def closeFrom (n : Nat) : Nat → Dispatcher → Surroundings → Dispatcher × Surroundings
  | 0, d, w => (d, w)
  | k + 1, d, w =>
    let d := { d with lines := d.lines.modify n SinkLine.close }
    let (d, w) := d.settle w
    closeFrom (n + 1) k d w

def close (d : Dispatcher) (w : Surroundings) : Dispatcher × Surroundings :=
  closeFrom 0 d.lines.length d w

/-- The names of the sinks with what became of the sets offered to them. -/
def report (d : Dispatcher) : List (String × SinkTally) :=
  d.lines.map fun l => (l.feed.name, l.feed.tally)

def recorder (d : Dispatcher) : Recorder :=
  d.report.foldl (fun r (name, t) => t.report name r) d.metrics

end Dispatcher

end LidarSync
