import LidarSync.Keyed
import LidarSync.Topic

/-!
# Blueprints

A blueprint describes a whole node: how it synchronizes, how its sensors are mounted, which mock
sources feed it and where its output goes.
-/

namespace LidarSync

/-- The version of the blueprint format. -/
inductive Version where
  | v1
deriving DecidableEq, Repr

/-- How rounds are collected and closed. -/
structure SyncSettings where
  outputFrame : String
  inputTopics : List Topic
  /-- How many published sets may wait for a reader. -/
  queueSize : Nat := 5
  /-- The longest time a round stays open, in seconds. -/
  timeout : Float := 0.1
  /-- For each input topic how late its clouds usually are, in seconds; or nothing at all. -/
  offsets : List Float := []
  velocityTopic : String := "/vehicle/status/velocity_status"

/-- The usual lateness of the topics; of a repeated topic the last one counts. -/
def SyncSettings.offsetOf (s : SyncSettings) : Keyed Float :=
  Keyed.ofList (s.inputTopics.zip s.offsets)

/-- A place in metres. -/
structure Location where
  x : Float := 0
  y : Float := 0
  z : Float := 0

/-- An orientation in degrees. -/
structure Rotation where
  pitch : Float := 0
  yaw : Float := 0
  roll : Float := 0

/-- Where a frame is mounted, and how it is turned. -/
structure Placement where
  location : Location := {}
  rotation : Rotation := {}

/-- The placement of a child frame in its parent frame. -/
structure StaticTransform where
  parent : String
  child : String
  placement : Placement := {}

/-- A mock source of clouds. -/
structure CloudSource where
  topic : Topic
  frame : String
  /-- How many clouds a second it delivers. -/
  frequency : Float
  pointCount : Nat := 1000
  /-- How long a cloud is under way, in milliseconds. -/
  latencyMs : Nat := 0
  /-- When the first cloud is delivered, in milliseconds after the start. -/
  startDelayMs : Nat := 0
  /-- A source that is not enabled never delivers. -/
  enabled : Bool := true

/-- A mock source of velocity reports. -/
structure VelocitySource where
  frequency : Float := 50
  forward : Float := 0
  lateral : Float := 0
  turnRate : Float := 0

/-- All mock sources. -/
structure Sources where
  clouds : List CloudSource := []
  velocity : Option VelocitySource := none

/-- The kinds of sinks that a blueprint can ask for. -/
inductive SinkKind where
  | log
  | file
deriving DecidableEq, Repr

/-- A sink to be set up. -/
structure SinkPlan where
  name : String
  kind : SinkKind
  /-- How many sets may wait for the sink. -/
  capacity : Nat := 100
  params : Keyed String := []

/-- The description of a node. -/
structure Blueprint where
  version : Version := .v1
  synchronizer : SyncSettings
  frames : List StaticTransform := []
  sources : Sources := {}
  sinks : List SinkPlan := []

end LidarSync
