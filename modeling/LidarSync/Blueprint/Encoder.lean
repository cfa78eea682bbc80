import LidarSync.Blueprint.Decoder

/-!
# Writing blueprints as documents

Every field of a blueprint is written, in the order in which it is declared. The trees for the two
formats differ in one place only: a missing velocity source is `null` in JSON and no member at all
in TOML, which knows no `null`.
-/

namespace LidarSync

open Document

def Document.ofTexts (xs : List String) : Document := .list (xs.map .text)

def Document.ofFloats (xs : List Float) : Document := .list (xs.map .float)

def choiceName {α : Type} [BEq α] (choices : List (String × α)) (a : α) : String :=
  ((choices.find? (·.2 == a)).map Prod.fst).getD ""

def Version.toDocument (v : Version) : Document := .text (choiceName Version.choices v)

def SinkKind.toDocument (k : SinkKind) : Document := .text (choiceName SinkKind.choices k)

def SyncSettings.toDocument (s : SyncSettings) : Document :=
  .record [
    ("output_frame", .text s.outputFrame),
    ("input_topics", .ofTexts s.inputTopics),
    ("max_queue_size", .int s.queueSize),
    ("timeout_sec", .float s.timeout),
    ("input_offset", .ofFloats s.offsets),
    ("velocity_topic", .text s.velocityTopic)]

def Location.toDocument (l : Location) : Document :=
  .record [("x", .float l.x), ("y", .float l.y), ("z", .float l.z)]

def Rotation.toDocument (r : Rotation) : Document :=
  .record [("pitch", .float r.pitch), ("yaw", .float r.yaw), ("roll", .float r.roll)]

def Placement.toDocument (p : Placement) : Document :=
  .record [("location", p.location.toDocument), ("rotation", p.rotation.toDocument)]

def StaticTransform.toDocument (t : StaticTransform) : Document :=
  .record [
    ("parent_frame", .text t.parent),
    ("child_frame", .text t.child),
    ("transform", t.placement.toDocument)]

def CloudSource.toDocument (s : CloudSource) : Document :=
  .record [
    ("topic", .text s.topic),
    ("frame_id", .text s.frame),
    ("frequency_hz", .float s.frequency),
    ("num_points", .int s.pointCount),
    ("latency_ms", .int s.latencyMs),
    ("start_delay_ms", .int s.startDelayMs),
    ("enabled", .bool s.enabled)]

def VelocitySource.toDocument (s : VelocitySource) : Document :=
  .record [
    ("frequency_hz", .float s.frequency),
    ("longitudinal_velocity", .float s.forward),
    ("lateral_velocity", .float s.lateral),
    ("heading_rate", .float s.turnRate)]

/-- Writes the velocity source as a member of the mock sources. -/
def velocityMember (f : Format) : Option VelocitySource → List (String × Document)
  | some v => [("velocity", v.toDocument)]
  | none => match f with
    | .json => [("velocity", .null)]
    | .toml => []

def Sources.toDocument (f : Format) (s : Sources) : Document :=
  .record (("clouds", .list (s.clouds.map CloudSource.toDocument)) :: velocityMember f s.velocity)

def SinkPlan.toDocument (s : SinkPlan) : Document :=
  .record [
    ("name", .text s.name),
    ("sink_type", s.kind.toDocument),
    ("queue_capacity", .int s.capacity),
    ("params", .record (s.params.map fun (k, v) => (k, .text v)))]

def Blueprint.toDocument (f : Format) (b : Blueprint) : Document :=
  .record [
    ("version", b.version.toDocument),
    ("synchronizer", b.synchronizer.toDocument),
    ("frames", .list (b.frames.map StaticTransform.toDocument)),
    ("sources", b.sources.toDocument f),
    ("sinks", .list (b.sinks.map SinkPlan.toDocument))]

def Blueprint.toJson (b : Blueprint) : Document := b.toDocument .json

def Blueprint.toToml (b : Blueprint) : Document := b.toDocument .toml

end LidarSync
