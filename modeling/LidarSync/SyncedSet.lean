import LidarSync.Cloud.Basic
import LidarSync.Diagnostics

/-!
# Synchronized sets

What a round publishes: for each topic the cloud moved to the reference stamp and the common frame,
or nothing, and how the round came about.
-/

namespace LidarSync

/-- What closed a round: every topic had delivered, or the deadline had passed. -/
inductive Trigger where
  | complete
  | timeout
deriving DecidableEq, Repr

def Trigger.label : Trigger → String
  | complete => "complete"
  | timeout => "timeout"

/-- The planar motion by which a cloud was corrected. -/
structure CorrectionSummary (α : Type) where
  /-- The stamp of the cloud before the correction. -/
  source : α
  dx : α
  dy : α
  yaw : α

/-- How a round came about. Times are in milliseconds. -/
structure RoundMeta where
  trigger : Trigger
  missing : List Topic
  /-- Topics whose cloud could not be brought into the output frame. -/
  failed : List Topic
  corrections : Keyed (CorrectionSummary Float)
  processingMs : Float
  cycleMs : Float
  diagnostics : Diagnostics

/-- The clouds of a round, all with one stamp and in one frame. -/
structure SyncedSet where
  roundId : Nat
  /-- The stamp of the oldest cloud, when there is a cloud at all. -/
  reference : Option Float
  frame : String
  clouds : Keyed (Option Cloud)
  details : RoundMeta

namespace SyncedSet

/-- The topics that have a cloud, with their clouds, in order. -/
def present (s : SyncedSet) : List (Topic × Cloud) :=
  s.clouds.filterMap fun (t, c) => c.map (t, ·)

/-- The output topics of a set with what is published on them. -/
def published (s : SyncedSet) : List (String × Cloud) :=
  s.present.map fun (t, c) => (t.synchronized, c)

def absent (s : SyncedSet) : List Topic := (s.clouds.filter (·.2.isNone)).map Prod.fst

def isEmpty (s : SyncedSet) : Bool := s.present.isEmpty

end SyncedSet

end LidarSync
