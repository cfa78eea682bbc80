import LidarSync.Round.Deadline

/-!
# The deadline task

A task that waits for the deadline of the round in progress. Deadlines reach it through a post that
holds one value, the latest; a value there is new until the task has looked at it. When what it
waits for has come, the task makes an attempt to close the round, and the outcome says how it goes
on: after a contended attempt it tries again ten milliseconds later, after a stopped one not at all.
-/

namespace LidarSync

/-- How an attempt to close the round went. -/
inductive FireOutcome where
  | fired
  /-- Someone else was busy with the round. -/
  | contended
  | idle
  | stopped
deriving DecidableEq, Repr

def FireOutcome.label : FireOutcome → String
  | fired => "fired"
  | contended => "contended"
  | idle => "idle"
  | stopped => "stopped"

/-- How long the task waits after a contended attempt. -/
def retryInterval : Nat := 10 * nanosPerMilli

/-- The post and the task that waits. -/
structure Scheduler where
  posted : Deadline := none
  /-- Whether the task has not yet looked at the posted value. -/
  fresh : Bool := false
  waitsFor : Deadline := none
  /-- Whether no more values will be posted. -/
  closed : Bool := false
  running : Bool := true
deriving DecidableEq, Repr

namespace Scheduler

def idle : Scheduler := {}

def notify (s : Scheduler) (d : Deadline) : Scheduler :=
  if s.closed then s else { s with posted := d, fresh := true }

def close (s : Scheduler) : Scheduler := { s with closed := true }

def abort (s : Scheduler) : Scheduler := { s with running := false }

def look (s : Scheduler) : Scheduler :=
  if s.running && s.fresh then { s with waitsFor := s.posted, fresh := false } else s

/-- Whether it is time for an attempt. -/
def isDue (s : Scheduler) (now : Instant) : Bool := s.running && s.waitsFor.isDue now

def after (s : Scheduler) (now : Instant) : FireOutcome → Scheduler
  | .fired => { s with waitsFor := none }
  | .idle => { s with waitsFor := none }
  | .contended => { s with waitsFor := some (now + retryInterval) }
  | .stopped => { s with running := false }

/-- The task ends when there is nothing new at the post and never will be. -/
def leave (s : Scheduler) : Scheduler :=
  if s.closed && !s.fresh then { s with running := false } else s

/-- Lets the task do all that it can at an instant: look at the post, make an attempt if one is due,
and end if it has to. The attempt changes a state of its own and may have no answer. -/
def settle {σ : Type} (fire : Instant → σ → Option (FireOutcome × σ)) (now : Instant)
    (s : Scheduler) (x : σ) : Option (Scheduler × σ) :=
  let s := s.look
  if s.isDue now then
    (fire now x).map fun (outcome, x) => ((s.after now outcome).leave, x)
  else some (s.leave, x)

end Scheduler

end LidarSync
