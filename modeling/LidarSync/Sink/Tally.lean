import LidarSync.Metrics.Recorder

/-!
# What became of the sets offered to a sink

A sink counts the sets it wrote, failed to write and never got for want of room, and says how many
are waiting. The same numbers can be told to a recorder of metrics.
-/

namespace LidarSync

/-- What became of the sets offered to a sink. -/
structure SinkTally where
  written : Nat := 0
  failed : Nat := 0
  dropped : Nat := 0
  /-- How many sets were waiting when that was last noted. -/
  waiting? : Option Nat := none
deriving DecidableEq, Repr

namespace SinkTally

def wrote (t : SinkTally) (ok : Bool) : SinkTally :=
  if ok then { t with written := t.written + 1 } else { t with failed := t.failed + 1 }

def drop (t : SinkTally) : SinkTally := { t with dropped := t.dropped + 1 }

def note (t : SinkTally) (waiting : Nat) : SinkTally := { t with waiting? := some waiting }

def waiting (t : SinkTally) : Nat := t.waiting?.getD 0

/-- Adds to a counter that is touched only by a number above zero. -/
def countSome (s : Series) (n : Nat) (r : Recorder) : Recorder := if n = 0 then r else r.count s n

def report (t : SinkTally) (sink : String) (r : Recorder) : Recorder :=
  let r := countSome (.dispatched sink true) t.written r
  let r := countSome (.dispatched sink false) t.failed r
  let r := countSome (.sinkDropped sink) t.dropped r
  match t.waiting? with
  | some n => r.gauge (.sinkQueueLength sink) (Float.ofNat n)
  | none => r

end SinkTally

end LidarSync
