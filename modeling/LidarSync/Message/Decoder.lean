import LidarSync.Document.Fields
import LidarSync.SyncedSet
import LidarSync.Velocity

/-!
# Reading messages off documents

The shapes in which clouds, velocity reports and synchronized sets are exchanged.
-/

namespace LidarSync

open Document Document.Fields Document.Decoder

def Point.decoder : Decoder Point :=
  Fields.decoder "PointXYZI" <|
    Point.mk
      <$> required "x" single
      <*> required "y" single
      <*> required "z" single
      <*> required "intensity" single

def Field.decoder : Decoder Field :=
  Fields.decoder "PointField" <|
    Field.mk <$> required "name" text <*> required "offset" (natural .word32)

def Header.decoder : Decoder Header :=
  Fields.decoder "CloudHeader" <|
    Header.mk <$> required "stamp" double <*> required "frame_id" text

def Cloud.decoder : Decoder Cloud :=
  Fields.decoder "PointCloud" <|
    Cloud.mk
      <$> required "header" Header.decoder
      <*> required "num_points" (natural .word32)
      <*> required "point_stride" (natural .word32)
      <*> required "fields" (listOf Field.decoder)
      <*> required "data" bytes

def Velocity.decoder : Decoder (Velocity Float) :=
  Fields.decoder "VelocitySample" <|
    Velocity.mk
      <$> required "stamp" double
      <*> required "longitudinal_velocity" double
      <*> required "lateral_velocity" double
      <*> required "heading_rate" double

def Trigger.choices : List (String × Trigger) :=
  [(Trigger.complete.label, .complete), (Trigger.timeout.label, .timeout)]

def Level.choices : List (String × Level) := [("ok", .ok), ("warn", .warn)]

def TopicStatus.choices : List (String × TopicStatus) := [("ok", .ok), ("ng", .missing)]

def Trigger.decoder : Decoder Trigger := choice Trigger.choices

def Diagnostics.decoder : Decoder Diagnostics :=
  Fields.decoder "SyncDiagnostics" <|
    Diagnostics.mk
      <$> required "level" (choice Level.choices)
      <*> required "message" text
      <*> required "topics" (mapOf (choice TopicStatus.choices))

def CorrectionSummary.decoder : Decoder (CorrectionSummary Float) :=
  Fields.decoder "CompensationSummary" <|
    CorrectionSummary.mk
      <$> required "source_stamp" double
      <*> required "dx" double
      <*> required "dy" double
      <*> required "dyaw" double

def RoundMeta.decoder : Decoder RoundMeta :=
  Fields.decoder "RoundMeta" <|
    RoundMeta.mk
      <$> required "trigger" Trigger.decoder
      <*> required "missing_topics" (listOf text)
      <*> required "failed_topics" (listOf text)
      <*> required "compensation" (mapOf CorrectionSummary.decoder)
      <*> required "processing_time_ms" double
      <*> required "cyclic_time_ms" double
      <*> required "diagnostics" Diagnostics.decoder

def SyncedSet.decoder : Decoder SyncedSet :=
  Fields.decoder "SyncedCloudSet" <|
    SyncedSet.mk
      <$> required "round_id" (natural .word64)
      <*> nullable "reference_stamp" double
      <*> required "frame_id" text
      <*> required "clouds" (mapOf (Decoder.optional Cloud.decoder))
      <*> required "meta" RoundMeta.decoder

end LidarSync
