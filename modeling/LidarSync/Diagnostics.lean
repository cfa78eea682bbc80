import LidarSync.Keyed
import LidarSync.Topic

/-!
# Diagnostics

Which topics contributed to a round, and whether all of them did.
-/

namespace LidarSync

/-- Whether a topic contributed to a round. -/
inductive TopicStatus where
  | ok
  | missing
deriving DecidableEq, Repr

def TopicStatus.label : TopicStatus → String
  | ok => "OK"
  | missing => "NG"

/-- Whether all topics contributed. -/
inductive Level where
  | ok
  | warn
deriving DecidableEq, Repr

/-- The state of synchronization after a round. -/
structure Diagnostics where
  level : Level
  message : String
  topics : Keyed TopicStatus
deriving DecidableEq, Repr

namespace Diagnostics

def allSynchronized : String := "all topics synchronized"

def partlySynchronized : String := "some topics are not synchronized"

def ofMissing (topics missing : List Topic) : Diagnostics where
  level := if missing.isEmpty then .ok else .warn
  message := if missing.isEmpty then allSynchronized else partlySynchronized
  topics := Keyed.ofList (topics.map fun t => (t, if t ∈ missing then .missing else .ok))

end Diagnostics

end LidarSync
