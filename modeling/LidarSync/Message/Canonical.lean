import LidarSync.Message.Encoder

/-!
# Canonical form

A document of a message is in canonical form when every member is there, in the order of the
declaration, and nothing else. Reading a message and writing it back brings its document into that
form.
-/

namespace LidarSync.Document

def Decoder.thenWrite {α : Type} (read : Decoder α) (write : α → Document) : Decoder Document :=
  fun f d => (read f d).map write

/-- The kinds of messages, by the names that complaints have for them, with what brings a document
of the kind into canonical form. -/
def canonical : List (String × Decoder Document) := [
  ("TopicId", Decoder.text.thenWrite .text),
  ("PointXYZI", Point.decoder.thenWrite Point.toDocument),
  ("PointField", Field.decoder.thenWrite Field.toDocument),
  ("CloudHeader", Header.decoder.thenWrite Header.toDocument),
  ("PointCloud", Cloud.decoder.thenWrite Cloud.toDocument),
  ("VelocitySample", Velocity.decoder.thenWrite Velocity.toDocument),
  ("CompensationSummary", CorrectionSummary.decoder.thenWrite CorrectionSummary.toDocument),
  ("RoundTrigger", Trigger.decoder.thenWrite Trigger.toDocument),
  ("RoundMeta", RoundMeta.decoder.thenWrite RoundMeta.toDocument),
  ("SyncDiagnostics", Diagnostics.decoder.thenWrite Diagnostics.toDocument),
  ("SyncedCloudSet", SyncedSet.decoder.thenWrite SyncedSet.toDocument),
  ("SynchronizerConfig", SyncSettings.decoder.thenWrite SyncSettings.toDocument),
  ("StaticTransformConfig", StaticTransform.decoder.thenWrite StaticTransform.toDocument),
  ("CloudSourceConfig", CloudSource.decoder.thenWrite CloudSource.toDocument),
  ("VelocitySourceConfig", VelocitySource.decoder.thenWrite VelocitySource.toDocument),
  ("SinkConfig", SinkPlan.decoder.thenWrite SinkPlan.toDocument),
  ("SinkType", SinkKind.decoder.thenWrite SinkKind.toDocument),
  ("ConfigVersion", Version.decoder.thenWrite Version.toDocument)]

end LidarSync.Document
