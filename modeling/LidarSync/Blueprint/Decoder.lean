import LidarSync.Blueprint.Basic
import LidarSync.Document.Fields

/-!
# Reading blueprints off documents

The names, the order and the defaults of the fields of every part of a blueprint.
-/

namespace LidarSync

open Document Document.Fields Document.Decoder

def Version.choices : List (String × Version) := [("V1", .v1)]

def SinkKind.choices : List (String × SinkKind) := [("log", .log), ("file", .file)]

def Version.decoder : Decoder Version := choice Version.choices

def SinkKind.decoder : Decoder SinkKind := choice SinkKind.choices

def SyncSettings.usual : SyncSettings := { outputFrame := "", inputTopics := [] }

def SyncSettings.decoder : Decoder SyncSettings :=
  Fields.decoder "SynchronizerConfig" <|
    SyncSettings.mk
      <$> required "output_frame" text
      <*> required "input_topics" (listOf text)
      <*> defaulted "max_queue_size" 5 (natural .size)
      <*> defaulted "timeout_sec" 0.1 double
      <*> defaulted "input_offset" [] (listOf double)
      <*> defaulted "velocity_topic" SyncSettings.usual.velocityTopic text

def Location.decoder : Decoder Location :=
  Fields.decoder "Location" <|
    Location.mk <$> required "x" double <*> required "y" double <*> required "z" double

def Rotation.decoder : Decoder Rotation :=
  Fields.decoder "Rotation" <|
    Rotation.mk <$> required "pitch" double <*> required "yaw" double <*> required "roll" double

def Placement.decoder : Decoder Placement :=
  Fields.decoder "Transform" <|
    Placement.mk <$> required "location" Location.decoder <*> required "rotation" Rotation.decoder

def StaticTransform.decoder : Decoder StaticTransform :=
  Fields.decoder "StaticTransformConfig" <|
    StaticTransform.mk
      <$> required "parent_frame" text
      <*> required "child_frame" text
      <*> defaulted "transform" {} Placement.decoder

def CloudSource.decoder : Decoder CloudSource :=
  Fields.decoder "CloudSourceConfig" <|
    CloudSource.mk
      <$> required "topic" text
      <*> required "frame_id" text
      <*> required "frequency_hz" double
      <*> defaulted "num_points" 1000 (natural .word32)
      <*> defaulted "latency_ms" 0 (natural .word64)
      <*> defaulted "start_delay_ms" 0 (natural .word64)
      <*> defaulted "enabled" true boolean

def VelocitySource.decoder : Decoder VelocitySource :=
  Fields.decoder "VelocitySourceConfig" <|
    VelocitySource.mk
      <$> defaulted "frequency_hz" 50 double
      <*> defaulted "longitudinal_velocity" 0 double
      <*> defaulted "lateral_velocity" 0 double
      <*> defaulted "heading_rate" 0 double

def Sources.decoder : Decoder Sources :=
  Fields.decoder "SourcesConfig" <|
    Sources.mk
      <$> defaulted "clouds" [] (listOf CloudSource.decoder)
      <*> defaulted "velocity" none (Decoder.optional VelocitySource.decoder)

def SinkPlan.decoder : Decoder SinkPlan :=
  Fields.decoder "SinkConfig" <|
    SinkPlan.mk
      <$> required "name" text
      <*> required "sink_type" SinkKind.decoder
      <*> defaulted "queue_capacity" 100 (natural .size)
      <*> defaulted "params" [] (mapOf text)

def Blueprint.decoder : Decoder Blueprint :=
  Fields.decoder "NodeBlueprint" <|
    Blueprint.mk
      <$> defaulted "version" .v1 Version.decoder
      <*> required "synchronizer" SyncSettings.decoder
      <*> defaulted "frames" [] (listOf StaticTransform.decoder)
      <*> defaulted "sources" {} Sources.decoder
      <*> defaulted "sinks" [] (listOf SinkPlan.decoder)

end LidarSync
