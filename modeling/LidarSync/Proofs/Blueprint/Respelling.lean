import LidarSync.Blueprint.Decoder
import LidarSync.Blueprint.Load
import LidarSync.Proofs.Blueprint.Valid
import LidarSync.Proofs.Document.RespelledRecords

/-!
# Blueprints that are written in other words

`Blueprint.schema` says how a document is read as a blueprint. A document and all that can be made of it
by respelling its parts describe the same blueprint, and loading accepts all of them or refuses all of
them for the same reason (`Blueprint.load_respelled`).
-/

namespace LidarSync

open Document Document.Decoder

/-! ## The schemas of the parts -/

def Location.schema : Schema :=
  .record [.required "x" .value, .required "y" .value, .required "z" .value]

def Rotation.schema : Schema :=
  .record [.required "pitch" .value, .required "yaw" .value, .required "roll" .value]

def Placement.schema : Schema :=
  .record [.required "location" Location.schema, .required "rotation" Rotation.schema]

section Schemas

variable (f : Format)

def SyncSettings.schema : Schema :=
  .record [
    .required "output_frame" .value,
    .required "input_topics" (.list .value),
    .defaulted f "max_queue_size" 5 (natural .size) .value,
    .defaulted f "timeout_sec" 0.1 double .value,
    .defaulted f "input_offset" [] (listOf double) (.list .value),
    .defaulted f "velocity_topic" SyncSettings.usual.velocityTopic text .value]

def StaticTransform.schema : Schema :=
  .record [
    .required "parent_frame" .value,
    .required "child_frame" .value,
    .defaulted f "transform" {} Placement.decoder Placement.schema]

def CloudSource.schema : Schema :=
  .record [
    .required "topic" .value,
    .required "frame_id" .value,
    .required "frequency_hz" .value,
    .defaulted f "num_points" 1000 (natural .word32) .value,
    .defaulted f "latency_ms" 0 (natural .word64) .value,
    .defaulted f "start_delay_ms" 0 (natural .word64) .value,
    .defaulted f "enabled" true boolean .value]

def VelocitySource.schema : Schema :=
  .record [
    .defaulted f "frequency_hz" 50 double .value,
    .defaulted f "longitudinal_velocity" 0 double .value,
    .defaulted f "lateral_velocity" 0 double .value,
    .defaulted f "heading_rate" 0 double .value]

def Sources.schema : Schema :=
  .record [
    .defaulted f "clouds" [] (listOf CloudSource.decoder) (.list (CloudSource.schema f)),
    .defaulted f "velocity" none (Decoder.optional VelocitySource.decoder)
      (.optional (VelocitySource.schema f))]

def SinkPlan.schema : Schema :=
  .record [
    .required "name" .value,
    .required "sink_type" .value,
    .defaulted f "queue_capacity" 100 (natural .size) .value,
    .defaulted f "params" [] (mapOf text) .map]

def Blueprint.schema : Schema :=
  .record [
    .defaulted f "version" .v1 Version.decoder .value,
    .required "synchronizer" (SyncSettings.schema f),
    .defaulted f "frames" [] (listOf StaticTransform.decoder) (.list (StaticTransform.schema f)),
    .defaulted f "sources" {} Sources.decoder (Sources.schema f),
    .defaulted f "sinks" [] (listOf SinkPlan.decoder) (.list (SinkPlan.schema f))]

end Schemas

/-! ## The parts of a blueprint -/

variable {f : Format}

theorem Location.decoder_follows : Location.decoder.Follows f Location.schema := by
  have hfields := Fields.Follows.required "x" (double_follows (f := f)) |>.map Location.mk
    |>.seq (.required "y" double_follows)
    |>.seq (.required "z" double_follows)
  exact hfields.decoder (by decide) "Location"

theorem Rotation.decoder_follows : Rotation.decoder.Follows f Rotation.schema := by
  have hfields := Fields.Follows.required "pitch" (double_follows (f := f)) |>.map Rotation.mk
    |>.seq (.required "yaw" double_follows)
    |>.seq (.required "roll" double_follows)
  exact hfields.decoder (by decide) "Rotation"

theorem Placement.decoder_follows : Placement.decoder.Follows f Placement.schema := by
  have hfields := Fields.Follows.required "location" (Location.decoder_follows (f := f))
    |>.map Placement.mk
    |>.seq (.required "rotation" Rotation.decoder_follows)
  exact hfields.decoder (by decide) "Transform"

theorem SyncSettings.decoder_follows : SyncSettings.decoder.Follows f (SyncSettings.schema f) := by
  have hfields := Fields.Follows.required "output_frame" (text_follows (f := f))
    |>.map SyncSettings.mk
    |>.seq (.required "input_topics" (listOf_follows text_follows))
    |>.seq (.defaulted "max_queue_size" 5 (natural_follows .size))
    |>.seq (.defaulted "timeout_sec" 0.1 double_follows)
    |>.seq (.defaulted "input_offset" [] (listOf_follows double_follows))
    |>.seq (.defaulted "velocity_topic" SyncSettings.usual.velocityTopic text_follows)
  exact hfields.decoder (by decide) "SynchronizerConfig"

theorem StaticTransform.decoder_follows :
    StaticTransform.decoder.Follows f (StaticTransform.schema f) := by
  have hfields := Fields.Follows.required "parent_frame" (text_follows (f := f))
    |>.map StaticTransform.mk
    |>.seq (.required "child_frame" text_follows)
    |>.seq (.defaulted "transform" {} Placement.decoder_follows)
  exact hfields.decoder (by decide) "StaticTransformConfig"

theorem CloudSource.decoder_follows : CloudSource.decoder.Follows f (CloudSource.schema f) := by
  have hfields := Fields.Follows.required "topic" (text_follows (f := f)) |>.map CloudSource.mk
    |>.seq (.required "frame_id" text_follows)
    |>.seq (.required "frequency_hz" double_follows)
    |>.seq (.defaulted "num_points" 1000 (natural_follows .word32))
    |>.seq (.defaulted "latency_ms" 0 (natural_follows .word64))
    |>.seq (.defaulted "start_delay_ms" 0 (natural_follows .word64))
    |>.seq (.defaulted "enabled" true boolean_follows)
  exact hfields.decoder (by decide) "CloudSourceConfig"

theorem VelocitySource.decoder_follows :
    VelocitySource.decoder.Follows f (VelocitySource.schema f) := by
  have hfields := Fields.Follows.defaulted "frequency_hz" 50 (double_follows (f := f))
    |>.map VelocitySource.mk
    |>.seq (.defaulted "longitudinal_velocity" 0 double_follows)
    |>.seq (.defaulted "lateral_velocity" 0 double_follows)
    |>.seq (.defaulted "heading_rate" 0 double_follows)
  exact hfields.decoder (by decide) "VelocitySourceConfig"

theorem Sources.decoder_follows : Sources.decoder.Follows f (Sources.schema f) := by
  have hclouds := listOf_follows (CloudSource.decoder_follows (f := f))
  have hfields := Fields.Follows.defaulted "clouds" [] hclouds |>.map Sources.mk
    |>.seq (.defaulted "velocity" none (optional_follows VelocitySource.decoder_follows))
  exact hfields.decoder (by decide) "SourcesConfig"

theorem SinkPlan.decoder_follows : SinkPlan.decoder.Follows f (SinkPlan.schema f) := by
  have hkind : SinkKind.decoder.Follows f .value := choice_follows SinkKind.choices
  have hfields := Fields.Follows.required "name" (text_follows (f := f)) |>.map SinkPlan.mk
    |>.seq (.required "sink_type" hkind)
    |>.seq (.defaulted "queue_capacity" 100 (natural_follows .size))
    |>.seq (.defaulted "params" [] (mapOf_follows text))
  exact hfields.decoder (by decide) "SinkConfig"

theorem Blueprint.decoder_follows : Blueprint.decoder.Follows f (Blueprint.schema f) := by
  have hversion : Version.decoder.Follows f .value := choice_follows Version.choices
  have hfields := Fields.Follows.defaulted "version" .v1 hversion |>.map Blueprint.mk
    |>.seq (.required "synchronizer" SyncSettings.decoder_follows)
    |>.seq (.defaulted "frames" [] (listOf_follows StaticTransform.decoder_follows))
    |>.seq (.defaulted "sources" {} Sources.decoder_follows)
    |>.seq (.defaulted "sinks" [] (listOf_follows SinkPlan.decoder_follows))
  exact hfields.decoder (by decide) "NodeBlueprint"

/-! ## Whole blueprints -/

namespace Blueprint

open Relation (ReflTransGen)

/-- A document that describes a blueprint may be respelled at will: it describes the same blueprint, and
loading accepts it as before or refuses it for the same reason. -/
theorem load_respelled {d d' : Document} {b : Blueprint} (h : Blueprint.decoder f d = .ok b)
    (hspell : ReflTransGen (Respelling (Blueprint.schema f)) d d') :
    Blueprint.decoder f d' = .ok b ∧
    ofDocument f d' = ofDocument f d ∧
    ∀ text text', Document.ofText? f text = some d → Document.ofText? f text' = some d' →
      ofText f text' = ofText f text := by
  have h' : Blueprint.decoder f d' = .ok b := Blueprint.decoder_follows.of_respellings hspell h
  have hload : ofDocument f d' = ofDocument f d := by
    unfold ofDocument
    rw [h, h']
  refine ⟨h', hload, fun text text' htext htext' => ?_⟩
  unfold ofText
  rw [htext, htext']
  exact hload

/-- Settings for a pair of lidars, with the usual timeout spelled out. -/
def spelledSettings : Document :=
  .record [
    ("input_topics", .list [.text "/left", .text "/right"]),
    ("timeout_sec", .float 0.1),
    ("output_frame", .text "base_link")]

def terseSettings : Document :=
  .list [.text "base_link", .list [.text "/left", .text "/right"]]

/-- A pair of lidars with a remark. -/
def spelledOut : Document :=
  .record [("remark", .int 1), ("synchronizer", spelledSettings), ("version", .text "V1")]

/-- The same in as few words as possible. -/
def terse : Document := .list [.text "V1", terseSettings]

theorem respelling_settings :
    Respelling (SyncSettings.schema .json) spelledSettings terseSettings := by
  refine @Respelling.asList [.required "output_frame" .value, .required "input_topics" (.list .value)]
    _ _ _ ?_ ?_
  · exact .cons (.member rfl) (.cons (.member rfl) .nil)
  · simp only [List.forall_mem_cons]
    refine ⟨nofun, ?_, nofun, nofun, fun _ h => absurd h List.not_mem_nil⟩
    rintro _ ⟨⟩
    rfl

/-- First the whole becomes a list, with the settings as the second element, and then the settings. -/
theorem respellings_terse : ReflTransGen (Respelling (Blueprint.schema .json)) spelledOut terse := by
  have hwhole : Respelling (Blueprint.schema .json) spelledOut (.list [.text "V1", spelledSettings]) := by
    refine @Respelling.asList [.defaulted .json "version" .v1 Version.decoder .value,
      .required "synchronizer" (SyncSettings.schema .json)]
      _ _ _ ?_ ?_
    · exact .cons (.member rfl) (.cons (.member rfl) .nil)
    · simp only [List.forall_mem_cons]
      exact ⟨nofun, nofun, nofun, fun _ h => absurd h List.not_mem_nil⟩
  have hsettings : Respelling (Blueprint.schema .json) (.list ([.text "V1"] ++ [spelledSettings])) terse :=
    .element rfl respelling_settings
  exact .tail (.single hwhole) hsettings

theorem load_respelled_terse :
    Blueprint.decoder .json spelledOut = .ok { synchronizer := .pair } ∧
    Blueprint.decoder .json terse = .ok { synchronizer := .pair } := by
  have h : Blueprint.decoder .json spelledOut = .ok { synchronizer := .pair } := by rfl
  exact ⟨h, (load_respelled h respellings_terse).1⟩

/-- A pair of lidars with one sink that has some parameters. -/
def withParams (params : List (String × Document)) : Document :=
  .record [
    ("synchronizer", .record [
      ("output_frame", .text "base_link"),
      ("input_topics", .list [.text "/left", .text "/right"])]),
    ("sinks", .list [
      .record [("name", .text "disk"), ("sink_type", .text "file"), ("params", .record params)]])]

/-- Of parameters with the same name the last one counts, so their order matters. -/
theorem repeated_params_in_order :
    let ms : List (String × Document) := [("base_path", .text "out"), ("base_path", .text "tmp")]
    ms.Perm ms.reverse ∧
    ∃ b b', Blueprint.decoder .json (withParams ms) = .ok b ∧
      Blueprint.decoder .json (withParams ms.reverse) = .ok b' ∧
      b.sinks.map (·.params) = [[("base_path", "tmp")]] ∧
      b'.sinks.map (·.params) = [[("base_path", "out")]] :=
  ⟨(List.reverse_perm _).symm, _, _, rfl, rfl, rfl, rfl⟩

end Blueprint

end LidarSync
