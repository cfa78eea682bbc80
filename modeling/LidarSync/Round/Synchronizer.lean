import LidarSync.Round.Engine
import LidarSync.Text.Quoted

/-!
# The synchronizer

An engine, the task that waits for its deadlines, and a clock. Whatever happens, the task then does
all that it can at that instant. The clock moves in whole milliseconds.
-/

namespace LidarSync

/-- A synchronizer at an instant. -/
structure Synchronizer where
  engine : Engine
  scheduler : Scheduler
  now : Instant

namespace Synchronizer

/-- Starts a synchronizer, if its settings are valid. -/
def start (s : SyncSettings) (g : FrameGraph Float) : Except Violation Synchronizer := do
  s.validate
  return ⟨.ofSettings s g, .idle, 0⟩

/-- Lets the deadline task do all that it can. -/
def settle (s : Synchronizer) : Option Synchronizer :=
  (s.scheduler.settle Engine.attempt s.now s.engine).map fun (scheduler, engine) =>
    { s with scheduler, engine }

def cloud (s : Synchronizer) (t : Topic) (c : Cloud) :
    Option (Except ArrivalFault Unit × Synchronizer) := do
  let (answer, taken) := s.engine.cloud s.now t c
  let engine ← taken.engine?
  let scheduler := match taken.turn.post with
    | some d => s.scheduler.notify d
    | none => s.scheduler
  let s ← { s with engine, scheduler }.settle
  return (answer, s)

def velocity (s : Synchronizer) (v : Velocity Float) : Synchronizer :=
  { s with engine := s.engine.velocity v }

def compensate (s : Synchronizer) (start stop : Float) : Option (Pose Float × Synchronizer) :=
  (s.engine.compensate start stop).map fun (pose, engine) => (pose, { s with engine })

def advance (s : Synchronizer) : Nat → Option Synchronizer
  | 0 => some s
  | n + 1 => do
    let s ← { s with now := s.now + nanosPerMilli }.settle
    advance s n

/-- Takes the oldest set off the output queue. -/
def receive (s : Synchronizer) : Option SyncedSet × Synchronizer :=
  let (set, output) := s.engine.output.receive
  (set, { s with engine := { s.engine with output } })

/-- The receiver of the output goes away. -/
def dropReceiver (s : Synchronizer) : Synchronizer :=
  { s with engine := { s.engine with output := s.engine.output.drop } }

/-- No deadline fires any more; arrivals are still taken in. -/
def shutdown (s : Synchronizer) : Synchronizer :=
  { s with
    engine := { s.engine with deadline := none }
    scheduler := (s.scheduler.notify none).abort }

/-- A synchronizer as it is shown for inspection. -/
def inspect (s : Synchronizer) : String :=
  let e := s.engine.settings
  s!"TimeSynchronizer \x7b output_frame: {Text.quoted e.outputFrame}, "
    ++ s!"topics: {Text.quotedList e.inputTopics} \x7d"

end Synchronizer

end LidarSync
