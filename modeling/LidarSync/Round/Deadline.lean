import LidarSync.Decimal.Rounded

/-!
# Deadlines

When the round in progress must be closed. Instants are nanoseconds since the clock started.
-/

namespace LidarSync

abbrev Instant := Nat

def nanosPerSecond : Nat := 1000000000

def nanosPerMilli : Nat := 1000000

/-- A length of time in seconds: the whole seconds and the fraction are converted on their own. -/
def secondsOf (nanos : Nat) : Float :=
  Float.ofNat (nanos / nanosPerSecond)
    + Float.ofNat (nanos % nanosPerSecond) / Float.ofNat nanosPerSecond

/-- The longest delay of a deadline: a day. -/
def maxDelay : Nat := 24 * 60 * 60 * nanosPerSecond

/-- A time in seconds as nanoseconds, rounded half to even; none when it is negative, infinite or no
number. -/
def nanoseconds? (secs : Float) : Option Nat :=
  match Decimal.Word.ofDouble secs with
  | .finite false v => some (v.roundTo (-9)).coefficient
  | .finite true v => if v.mantissa = 0 then some 0 else none
  | _ => none

/-- The delay that an arming for a number of seconds asks for: at most a day, and none at all for
what is not above zero. -/
def delayOf (secs : Float) : Nat :=
  if 0 < secs then min ((nanoseconds? secs).getD maxDelay) maxDelay else 0

/-- When the round in progress must be closed, if at all. -/
abbrev Deadline := Option Instant

namespace Deadline

/-- A deadline in a number of seconds from now. -/
def armed (now : Instant) (secs : Float) : Deadline := some (now + delayOf secs)

def isDue (d : Deadline) (now : Instant) : Bool :=
  match d with
  | some due => due ≤ now
  | none => false

end Deadline

/-- The first whole millisecond that is not before an instant, as an instant. -/
def nextTick (t : Instant) : Instant :=
  (t + nanosPerMilli - 1) / nanosPerMilli * nanosPerMilli

end LidarSync
