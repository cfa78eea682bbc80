import LidarSync.Blueprint.Basic
import LidarSync.Cloud.Basic
import LidarSync.Decimal.Layout
import LidarSync.Round.Deadline
import LidarSync.Velocity

/-!
# Mock sources

A mock source delivers one message again and again at a fixed frequency, each time with a new stamp.
Clouds are rings of points, velocity reports repeat their settings.
-/

namespace LidarSync

/-- What sources deliver. -/
inductive Inbound where
  | cloud (topic : Topic) (c : Cloud)
  | velocity (v : Velocity Float)

def Inbound.stamped (x : Float) : Inbound → Inbound
  | cloud topic c => .cloud topic { c with header := { c.header with stamp := x } }
  | velocity v => .velocity { v with stamp := x }

/-- A source of messages. -/
structure Source where
  /-- The topic of its clouds; a source of velocity reports has none. -/
  topic? : Option Topic
  /-- How many messages a second it delivers. -/
  frequency : Float
  /-- How far stamps lie behind the clock, in seconds. -/
  latency : Float
  /-- The time from the start to the first message, in nanoseconds. -/
  startDelay : Nat
  /-- What it delivers, but for the stamp. -/
  sample : Inbound

/-- Why a source cannot be used. -/
inductive SourceFault where
  | badFrequency (name : String) (frequency : Float)
  | alreadyRunning (name : String)

def SourceFault.message : SourceFault → String
  | badFrequency name frequency =>
    s!"invalid source {name}: frequency_hz must be > 0, got {Decimal.Layout.plain.double frequency}"
  | alreadyRunning name => s!"source {name} is already running"

def ringRadius : Float32 := 10

def fullTurn : Float32 := 6.2831855

/-- A point of a ring of `count` points in the plane z = 0. Intensities repeat every 256 points. -/
def ringPoint (count i : Nat) : Point :=
  let angle := Float32.ofNat i / Float32.ofNat (max count 1) * fullTurn
  { x := ⟨(ringRadius * angle.cos).toBits⟩
    y := ⟨(ringRadius * angle.sin).toBits⟩
    z := .zero
    intensity := .ofInt (i % 256) }

def ring (count : Nat) : List Point := (List.range count).map (ringPoint count)

def CloudSource.toSource (s : CloudSource) : Source where
  topic? := some s.topic
  frequency := s.frequency
  latency := Float.ofNat s.latencyMs / 1000
  startDelay := s.startDelayMs * nanosPerMilli
  sample := .cloud s.topic (.ofPoints 0 s.frame (ring s.pointCount))

def VelocitySource.toSource (s : VelocitySource) : Source where
  topic? := none
  frequency := s.frequency
  latency := 0
  startDelay := 0
  sample := .velocity ⟨0, s.forward, s.lateral, s.turnRate⟩

namespace Source

def name (s : Source) : String := s.topic?.getD "velocity"

/-- A source has to have a frequency above zero that is a number. -/
def check (s : Source) : Except SourceFault Unit :=
  if s.frequency.isFinite ∧ 0 < s.frequency then .ok ()
  else .error (.badFrequency s.name s.frequency)

/-- The limit of what a period can be, in nanoseconds. -/
def periodLimit : Nat := 0x10000000000000000 * nanosPerSecond

/-- The time between two messages in nanoseconds, if it can be told apart from no time at all and
from eternity. -/
def period? (s : Source) : Option Nat :=
  (nanoseconds? (1 / s.frequency)).filter fun n => 0 < n ∧ n < periodLimit

end Source

/-- A clock from which sources take their stamps. -/
structure SourceClock where
  origin : Instant
  base : Float

def SourceClock.stamp (c : SourceClock) (now : Instant) : Float :=
  c.base + secondsOf (now - c.origin)

/-- The delivery of one source, from one start on. -/
structure SourceTask where
  source : Source
  clock : SourceClock
  period : Nat
  period_pos : 0 < period
  due : Instant

namespace SourceTask

/-- The delivery of a source that is started now; none if it has no period. -/
def start? (s : Source) (clock : SourceClock) (now : Instant) : Option SourceTask :=
  match s.period? with
  | some n =>
    if h : 0 < n then some ⟨s, clock, n, h, now + s.startDelay⟩ else none
  | none => none

def message (t : SourceTask) (now : Instant) : Inbound :=
  t.source.sample.stamped (t.clock.stamp now - t.source.latency)

/-- The delivery after a message: the next one is due a period after this one was. -/
def next (t : SourceTask) : SourceTask := { t with due := t.due + t.period }

end SourceTask

end LidarSync
