import LidarSync.Blueprint.Encoder
import LidarSync.Message.Decoder

/-!
# Writing messages as documents

Every field of a message is written, in the order in which it is declared.
-/

namespace LidarSync

open Document

def Point.toDocument (p : Point) : Document :=
  .record [("x", .single p.x), ("y", .single p.y), ("z", .single p.z),
    ("intensity", .single p.intensity)]

def Field.toDocument (f : Field) : Document :=
  .record [("name", .text f.name), ("offset", .int f.offset)]

def Header.toDocument (h : Header) : Document :=
  .record [("stamp", .float h.stamp), ("frame_id", .text h.frame)]

def Cloud.toDocument (c : Cloud) : Document :=
  .record [
    ("header", c.header.toDocument),
    ("num_points", .int c.count),
    ("point_stride", .int c.stride),
    ("fields", .list (c.fields.map Field.toDocument)),
    ("data", .list (c.payload.map fun b => .int b.toNat))]

def Velocity.toDocument (v : Velocity Float) : Document :=
  .record [
    ("stamp", .float v.stamp),
    ("longitudinal_velocity", .float v.forward),
    ("lateral_velocity", .float v.lateral),
    ("heading_rate", .float v.turnRate)]

def Trigger.toDocument (t : Trigger) : Document := .text t.label

def Diagnostics.toDocument (d : Diagnostics) : Document :=
  .record [
    ("level", .text (choiceName Level.choices d.level)),
    ("message", .text d.message),
    ("topics", .record (d.topics.map fun (t, s) =>
      (t, .text (choiceName TopicStatus.choices s))))]

def CorrectionSummary.toDocument (c : CorrectionSummary Float) : Document :=
  .record [
    ("source_stamp", .float c.source),
    ("dx", .float c.dx),
    ("dy", .float c.dy),
    ("dyaw", .float c.yaw)]

def RoundMeta.toDocument (m : RoundMeta) : Document :=
  .record [
    ("trigger", m.trigger.toDocument),
    ("missing_topics", .ofTexts m.missing),
    ("failed_topics", .ofTexts m.failed),
    ("compensation", .record (m.corrections.map fun (t, c) => (t, c.toDocument))),
    ("processing_time_ms", .float m.processingMs),
    ("cyclic_time_ms", .float m.cycleMs),
    ("diagnostics", m.diagnostics.toDocument)]

def Document.ofOption {α : Type} (f : α → Document) : Option α → Document
  | some a => f a
  | none => .null

def SyncedSet.toDocument (s : SyncedSet) : Document :=
  .record [
    ("round_id", .int s.roundId),
    ("reference_stamp", .ofOption .float s.reference),
    ("frame_id", .text s.frame),
    ("clouds", .record (s.clouds.map fun (t, c) => (t, .ofOption Cloud.toDocument c))),
    ("meta", s.details.toDocument)]

end LidarSync
