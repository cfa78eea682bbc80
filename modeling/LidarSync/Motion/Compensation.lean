import LidarSync.Geometry.Pose
import LidarSync.Motion.History

/-!
# Motion compensation

How far the vehicle moved between two instants, integrated from its velocity reports: in each step
it turns by the reported rate and then drives straight at the reported speed. A step that is too
long ends the integration early.
-/

namespace LidarSync

variable {α : Type} [Scalar α]

/-- The longest step over which a velocity is taken to hold, in seconds. -/
def maxStep : α := 0.1

/-- A planar displacement: where, and turned by how much. -/
structure Drift (α : Type) where
  x : α
  y : α
  yaw : α

namespace Drift

def none : Drift α := ⟨0, 0, 0⟩

/-- The displacement after driving with a velocity for a time. -/
def advance (d : Drift α) (v : Velocity α) (time : α) : Drift α :=
  let distance := v.forward * time
  let yaw := d.yaw + v.turnRate * time
  ⟨d.x + distance * Scalar.cos yaw, d.y + distance * Scalar.sin yaw, yaw⟩

def toPose (d : Drift α) : Pose α :=
  ⟨⟨d.x, d.y, 0⟩, Quaternion.ofAngles 0 0 d.yaw⟩

end Drift

/-- A velocity and the time for which it is taken to hold. -/
abbrev Step (α : Type) := Velocity α × α

/-- The steps that lead from an instant over the stamps of reports to `stop`: each report holds from
the stamp before it up to its own, and the last one up to `stop`. -/
def steps (stop : α) : α → List (Velocity α) → List (Step α)
  | _, [] => []
  | start, [v] => [(v, stop - start)]
  | start, v :: w :: rest => (v, v.stamp - start) :: steps stop v.stamp (w :: rest)

def fits (s : Step α) : Bool := !(maxStep < Scalar.magnitude s.2)

/-- The steps before the first one that is too long. -/
def walked (ss : List (Step α)) : List (Step α) := ss.takeWhile fits

def drive (ss : List (Step α)) : Drift α := ss.foldl (fun d s => d.advance s.1 s.2) Drift.none

/-- The motion between two instants, and whether the integration ended early. -/
structure Correction (α : Type) where
  pose : Pose α
  truncated : Bool

/-- The motion from `start` to `stop`; none at all without reports or when time runs backwards.
There is no answer where the history has none. -/
def History.compensate (h : History α) (start stop : α) : Option (Correction α) :=
  if h.samples.isEmpty ∨ stop < start then some ⟨Pose.identity, false⟩
  else (h.query start stop).map fun samples =>
    let ss := steps stop start samples
    ⟨(drive (walked ss)).toPose, (walked ss).length < ss.length⟩

/-- A motion, and how many integrations on the way ended early. -/
structure Chained (α : Type) where
  pose : Pose α
  truncations : Nat

/-- One leg more of a chained motion: from a stamp to the instant reached so far. The instant
reached then is the earlier one of the two. -/
def chainLeg (h : History α) (s : Chained α × α) (leg : α) : Option (Chained α × α) :=
  (h.compensate leg s.2).map fun c =>
    (⟨c.pose * s.1.pose, s.1.truncations + (if c.truncated then 1 else 0)⟩, Scalar.least s.2 leg)

/-- The motion that takes a cloud with a stamp to the last of a list of stamps, leg by leg. -/
def chainedCorrection (h : History α) (stamps : List α) (stamp : α) : Option (Chained α) :=
  (stamps.foldlM (chainLeg h) (⟨Pose.identity, 0⟩, stamp)).map Prod.fst

end LidarSync
