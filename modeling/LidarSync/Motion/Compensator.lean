import LidarSync.Motion.Compensation

/-!
# The compensator

A velocity history in use, with a count of the integrations that ended early. That many truncations
within ten seconds are reported by one warning, which is what `Compensator.warnings` counts for a
run that takes no longer.
-/

namespace LidarSync

/-- A velocity history, and how many integrations over it ended early. -/
structure Compensator where
  history : History Float := .empty
  truncations : Nat := 0

namespace Compensator

def empty : Compensator := {}

def record (c : Compensator) (v : Velocity Float) : Compensator :=
  { c with history := c.history.record v }

def note (c : Compensator) (n : Nat) : Compensator :=
  { c with truncations := c.truncations + n }

/-- The motion between two instants. There is no answer where the history has none. -/
def compensate (c : Compensator) (start stop : Float) : Option (Pose Float × Compensator) :=
  (c.history.compensate start stop).map fun r =>
    (r.pose, c.note (if r.truncated then 1 else 0))

/-- How many warnings about sparse reports a short run gives. -/
def warnings (c : Compensator) : Nat := min 1 c.truncations

end Compensator

end LidarSync
