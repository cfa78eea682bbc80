import LidarSync.Proofs.Blueprint.Storable
import LidarSync.Proofs.Blueprint.Valid

/-!
# Blueprints that are written and read back

A valid blueprint that is written as a document and read off what the document's text stands for is
the blueprint that it was (`Blueprint.round_trip`). JSON has no words for numbers that are not finite,
so there this holds of the blueprints without such numbers, and the others cannot be read back; TOML
keeps all of them. Each part of a blueprint has its own rule, put together in the order of its fields.
-/

namespace LidarSync

open Document

variable {f : Format}

/-! ## Numbers -/

def SyncSettings.floats (s : SyncSettings) : List Float := s.timeout :: s.offsets

def Location.floats (l : Location) : List Float := [l.x, l.y, l.z]

def Rotation.floats (r : Rotation) : List Float := [r.pitch, r.yaw, r.roll]

def Placement.floats (p : Placement) : List Float := p.location.floats ++ p.rotation.floats

def StaticTransform.floats (t : StaticTransform) : List Float := t.placement.floats

def CloudSource.floats (s : CloudSource) : List Float := [s.frequency]

def VelocitySource.floats (v : VelocitySource) : List Float :=
  [v.frequency, v.forward, v.lateral, v.turnRate]

def Sources.floats (s : Sources) : List Float :=
  s.clouds.flatMap CloudSource.floats ++ s.velocity.toList.flatMap VelocitySource.floats

/-- All numbers of a blueprint that need not be whole. -/
def Blueprint.floats (b : Blueprint) : List Float :=
  b.synchronizer.floats ++ b.frames.flatMap StaticTransform.floats ++ b.sources.floats

/-! ## The parts of a blueprint -/

section Parts

open Document.Decoder

theorem Version.restored (v : Version) :
    Version.decoder.Yields f (v.toDocument.written f) True v := by
  refine .of_eq_ok ?_
  cases v
  cases f <;> rfl

theorem SinkKind.restored (k : SinkKind) :
    SinkKind.decoder.Yields f (k.toDocument.written f) True k := by
  refine .of_eq_ok ?_
  cases k <;> cases f <;> rfl

theorem Location.restored (l : Location) :
    Location.decoder.Yields f (l.toDocument.written f) (∀ x ∈ l.floats, f.Says x) l := by
  have hfields := Fields.Yields.required "x" (double_yields (f := f) l.x) |>.map Location.mk
    |>.seq (.required "y" (double_yields l.y))
    |>.seq (.required "z" (double_yields l.z))
  rw [Location.toDocument, written_record]
  refine (hfields.decoder (by decide) "Location").imp ?_
  simp [Location.floats, and_assoc]

theorem Rotation.restored (r : Rotation) :
    Rotation.decoder.Yields f (r.toDocument.written f) (∀ x ∈ r.floats, f.Says x) r := by
  have hfields := Fields.Yields.required "pitch" (double_yields (f := f) r.pitch)
    |>.map Rotation.mk
    |>.seq (.required "yaw" (double_yields r.yaw))
    |>.seq (.required "roll" (double_yields r.roll))
  rw [Rotation.toDocument, written_record]
  refine (hfields.decoder (by decide) "Rotation").imp ?_
  simp [Rotation.floats, and_assoc]

theorem Placement.restored (p : Placement) :
    Placement.decoder.Yields f (p.toDocument.written f) (∀ x ∈ p.floats, f.Says x) p := by
  have hfields := Fields.Yields.required "location" (p.location.restored (f := f))
    |>.map Placement.mk
    |>.seq (.required "rotation" p.rotation.restored)
  rw [Placement.toDocument, written_record]
  refine (hfields.decoder (by decide) "Transform").imp ?_
  rw [Placement.floats, List.forall_mem_append, true_and]

theorem StaticTransform.restored (t : StaticTransform) :
    StaticTransform.decoder.Yields f (t.toDocument.written f) (∀ x ∈ t.floats, f.Says x) t := by
  have hfields := Fields.Yields.required "parent_frame" (text_yields (f := f) t.parent)
    |>.map StaticTransform.mk
    |>.seq (.required "child_frame" (text_yields t.child))
    |>.seq (.defaulted "transform" {} t.placement.restored)
  rw [StaticTransform.toDocument, written_record]
  refine (hfields.decoder (by decide) "StaticTransformConfig").imp ?_
  rw [StaticTransform.floats, true_and, true_and, true_and]

theorem SyncSettings.restored {s : SyncSettings} (h : s.queueSize < Width.size.limit) :
    SyncSettings.decoder.Yields f (s.toDocument.written f) (∀ x ∈ s.floats, f.Says x) s := by
  have htopics : (listOf text).Yields f ((Document.ofTexts s.inputTopics).written f)
      (∀ _ ∈ s.inputTopics, True) s.inputTopics := listOf_yields fun t _ => text_yields t
  have hoffsets : (listOf double).Yields f ((Document.ofFloats s.offsets).written f)
      (∀ x ∈ s.offsets, f.Says x) s.offsets := listOf_yields fun x _ => double_yields x
  have hfields := Fields.Yields.required "output_frame" (text_yields (f := f) s.outputFrame)
    |>.map SyncSettings.mk
    |>.seq (.required "input_topics" htopics)
    |>.seq (.defaulted "max_queue_size" 5 (natural_yields h))
    |>.seq (.defaulted "timeout_sec" 0.1 (double_yields s.timeout))
    |>.seq (.defaulted "input_offset" [] hoffsets)
    |>.seq (.defaulted "velocity_topic" SyncSettings.usual.velocityTopic
      (text_yields s.velocityTopic))
  rw [SyncSettings.toDocument, written_record]
  refine (hfields.decoder (by decide) "SynchronizerConfig").imp ?_
  simp [SyncSettings.floats]

theorem CloudSource.Storable.restored {s : CloudSource} (h : s.Storable) :
    CloudSource.decoder.Yields f (s.toDocument.written f) (∀ x ∈ s.floats, f.Says x) s := by
  have hfields := Fields.Yields.required "topic" (text_yields (f := f) s.topic)
    |>.map CloudSource.mk
    |>.seq (.required "frame_id" (text_yields s.frame))
    |>.seq (.required "frequency_hz" (double_yields s.frequency))
    |>.seq (.defaulted "num_points" 1000 (natural_yields h.pointCount))
    |>.seq (.defaulted "latency_ms" 0 (natural_yields h.latency))
    |>.seq (.defaulted "start_delay_ms" 0 (natural_yields h.startDelay))
    |>.seq (.defaulted "enabled" true (boolean_yields s.enabled))
  rw [CloudSource.toDocument, written_record]
  refine (hfields.decoder (by decide) "CloudSourceConfig").imp ?_
  simp [CloudSource.floats]

theorem VelocitySource.restored (v : VelocitySource) :
    VelocitySource.decoder.Yields f (v.toDocument.written f) (∀ x ∈ v.floats, f.Says x) v := by
  have hfields := Fields.Yields.defaulted "frequency_hz" 50 (double_yields (f := f) v.frequency)
    |>.map VelocitySource.mk
    |>.seq (.defaulted "longitudinal_velocity" 0 (double_yields v.forward))
    |>.seq (.defaulted "lateral_velocity" 0 (double_yields v.lateral))
    |>.seq (.defaulted "heading_rate" 0 (double_yields v.turnRate))
  rw [VelocitySource.toDocument, written_record]
  refine (hfields.decoder (by decide) "VelocitySourceConfig").imp ?_
  simp [VelocitySource.floats, and_assoc]

/-- The velocity source is `null` in JSON and no member in TOML where there is none. -/
theorem velocityMember_restored (v : Option VelocitySource) :
    (Fields.defaulted "velocity" none (Decoder.optional VelocitySource.decoder)).Yields f
      ((velocityMember f v).map fun (name, d) => (name, d.written f))
      (∀ x ∈ v.toList.flatMap VelocitySource.floats, f.Says x) v := by
  cases v with
  | none =>
    have hnone : True ↔ ∀ x ∈ ([] : List Float), f.Says x := iff_of_true trivial nofun
    cases f with
    | json => exact (Fields.Yields.defaulted "velocity" none (.of_eq_ok rfl)).imp hnone
    | toml => exact (Fields.Yields.defaulted_absent "velocity" none _).imp hnone
  | some v =>
    have hrecord : v.toDocument.written f ≠ .null := by
      rw [VelocitySource.toDocument, written_record]
      exact nofun
    refine (Fields.Yields.defaulted "velocity" none (optional_yields v.restored hrecord)).imp ?_
    rw [Option.toList_some, List.flatMap_singleton]

theorem Sources.restored {s : Sources} (h : ∀ c ∈ s.clouds, c.Storable) :
    Sources.decoder.Yields f ((s.toDocument f).written f) (∀ x ∈ s.floats, f.Says x) s := by
  have hclouds : (listOf CloudSource.decoder).Yields f
      ((Document.list (s.clouds.map CloudSource.toDocument)).written f)
      (∀ c ∈ s.clouds, ∀ x ∈ c.floats, f.Says x) s.clouds :=
    listOf_yields fun c hc => (h c hc).restored
  have hfields := Fields.Yields.defaulted "clouds" [] hclouds
    |>.map Sources.mk
    |>.seq (velocityMember_restored s.velocity)
  rw [Sources.toDocument, written_record]
  refine (hfields.decoder (by decide) "SourcesConfig").imp ?_
  simp only [Sources.floats, List.forall_mem_append, List.forall_mem_flatMap, true_and]

theorem SinkPlan.Storable.restored {s : SinkPlan} (h : s.Storable) :
    SinkPlan.decoder.Yields f (s.toDocument.written f) True s := by
  have hfields := Fields.Yields.required "name" (text_yields (f := f) s.name)
    |>.map SinkPlan.mk
    |>.seq (.required "sink_type" s.kind.restored)
    |>.seq (.defaulted "queue_capacity" 100 (natural_yields h.capacity))
    |>.seq (.defaulted "params" [] (mapOf_yields h.params))
  rw [SinkPlan.toDocument, written_record]
  refine (hfields.decoder (by decide) "SinkConfig").imp ?_
  simp

theorem Blueprint.Storable.read_written {b : Blueprint} (h : b.Storable) :
    Blueprint.decoder.Yields f ((b.toDocument f).written f) (∀ x ∈ b.floats, f.Says x) b := by
  have hframes : (listOf StaticTransform.decoder).Yields f
      ((Document.list (b.frames.map StaticTransform.toDocument)).written f)
      (∀ t ∈ b.frames, ∀ x ∈ t.floats, f.Says x) b.frames :=
    listOf_yields fun t _ => t.restored
  have hsinks : (listOf SinkPlan.decoder).Yields f
      ((Document.list (b.sinks.map SinkPlan.toDocument)).written f)
      (∀ _ ∈ b.sinks, True) b.sinks :=
    listOf_yields fun s hs => (h.sinks s hs).restored
  have hfields := Fields.Yields.defaulted "version" .v1 (b.version.restored (f := f))
    |>.map Blueprint.mk
    |>.seq (.required "synchronizer" (SyncSettings.restored h.queueSize))
    |>.seq (.defaulted "frames" [] hframes)
    |>.seq (.defaulted "sources" {} (Sources.restored h.clouds))
    |>.seq (.defaulted "sinks" [] hsinks)
  rw [Blueprint.toDocument, written_record]
  refine (hfields.decoder (by decide) "NodeBlueprint").imp ?_
  simp only [Blueprint.floats, List.forall_mem_append, List.forall_mem_flatMap, true_and,
    implies_true, and_true]

end Parts

/-! ## Whole blueprints -/

theorem Blueprint.ofDocument_written {b b' : Blueprint} (h : b.Storable)
    (hvalid : b.validate = .ok ()) :
    ofDocument f ((b.toDocument f).written f) = .ok b' ↔
      (∀ x ∈ b.floats, f.Says x) ∧ b' = b := by
  rw [ofDocument_eq_ok_iff, h.read_written b']
  constructor
  · exact fun hread => hread.1
  · rintro ⟨hall, rfl⟩
    exact ⟨⟨hall, rfl⟩, hvalid⟩

/-- A valid blueprint that was written is read back as it was, and found valid again: from JSON if all
of its numbers are finite, while nothing is read otherwise; from TOML in any case. The JSON text is that
of the document which is read back. A blueprint that was loaded from a document has room for its numbers
and is valid, so all of this holds of it. -/
theorem Blueprint.round_trip {b : Blueprint} (h : b.Storable) (hvalid : b.validate = .ok ()) :
    (∀ b', ofDocument .json (b.toJson.written .json) = .ok b' ↔
      (∀ x ∈ b.floats, x.isFinite = true) ∧ b' = b) ∧
    (∀ b', ofDocument .toml (b.toToml.written .toml) = .ok b' ↔ b' = b) ∧
    (b.toJson.written .json).pretty = b.toJson.pretty ∧
    ∀ f d b', ofDocument f d = .ok b' → b'.Storable ∧ b'.validate = .ok () := by
  refine ⟨fun b' => ofDocument_written h hvalid, fun b' => ?_, pretty_written b.toJson, ?_⟩
  · have htoml : ∀ x ∈ b.floats, Format.toml.Says x := fun _ _ => trivial
    exact (ofDocument_written h hvalid).trans (and_iff_right htoml)
  · intro f d b' hread
    exact ⟨storable_of_ofDocument hread, (ofDocument_eq_ok_iff.1 hread).2⟩

/-- Two lidars, one of them mounted at a height of `z` metres and played by a mock source. -/
def Blueprint.mounted (z : Float) : Blueprint where
  synchronizer := SyncSettings.pair
  frames := [{ parent := "base_link", child := "left", placement := { location := { z } } }]
  sources :=
    { clouds := [{ topic := "/left", frame := "left", frequency := 10 }], velocity := some {} }
  sinks := [{ name := "archive", kind := .file, params := [("dir", "/data")] }]

theorem Blueprint.mounted_storable (z : Float) : (mounted z).Storable where
  queueSize := (by decide : 5 < Width.size.limit)
  clouds := by
    intro s hs
    cases List.mem_singleton.1 hs
    exact ⟨by decide, by decide, by decide⟩
  sinks := by
    intro s hs
    cases List.mem_singleton.1 hs
    exact ⟨by decide, List.pairwise_singleton _ _⟩

theorem Blueprint.mounted_valid (z : Float) : (mounted z).validate = .ok () := by
  have hsettings : SyncSettings.pair.validate = .ok () :=
    SyncSettings.pair.validate_eq_ok_iff.2 SyncSettings.pair_valid
  unfold validate
  change (do SyncSettings.pair.validate; _) = _
  rw [hsettings]
  rfl

/-- At a height of 1.8 metres the blueprint comes back from both formats, and at an infinite height or
at one that is no number from TOML only. -/
theorem Blueprint.round_trip_mounted :
    ofDocument .json ((mounted 1.8).toJson.written .json) = .ok (mounted 1.8) ∧
    ofDocument .toml ((mounted 1.8).toToml.written .toml) = .ok (mounted 1.8) ∧
    (∀ b', ofDocument .json ((mounted (1 / 0)).toJson.written .json) ≠ .ok b') ∧
    ofDocument .toml ((mounted (1 / 0)).toToml.written .toml) = .ok (mounted (1 / 0)) ∧
    ofDocument .toml ((mounted (0 / 0)).toToml.written .toml) = .ok (mounted (0 / 0)) := by
  have hfinite := round_trip (mounted_storable 1.8) (mounted_valid 1.8)
  have hinfinite := round_trip (mounted_storable (1 / 0)) (mounted_valid (1 / 0))
  have hnan := round_trip (mounted_storable (0 / 0)) (mounted_valid (0 / 0))
  refine ⟨(hfinite.1 _).2 ⟨by decide, rfl⟩, (hfinite.2.1 _).2 rfl, fun b' hread => ?_,
    (hinfinite.2.1 _).2 rfl, (hnan.2.1 _).2 rfl⟩
  have hall : ¬ ∀ x ∈ (mounted (1 / 0)).floats, x.isFinite = true := by decide
  exact hall ((hinfinite.1 b').1 hread).1

/-- Two lidars with a queue for more sets than a signed word of 64 bits counts. -/
def Blueprint.roomy : Blueprint where
  synchronizer := { SyncSettings.pair with queueSize := 0xFFFFFFFFFFFFFFFF }

/-- A whole number beyond the signed words of 64 bits is written to TOML, where its digits are read,
and the blueprint comes back. -/
theorem Blueprint.roomy_comes_back :
    roomy.Storable ∧ roomy.validate = .ok () ∧
    ¬ roomy.synchronizer.queueSize < 2 ^ 63 ∧
    (roomy.toToml.get? "synchronizer").bind (Document.get? "max_queue_size")
      = some (.int 0xFFFFFFFFFFFFFFFF) ∧
    Toml.integer? "18446744073709551615".toList = some (.int 0xFFFFFFFFFFFFFFFF) ∧
    ofDocument .toml (roomy.toToml.written .toml) = .ok roomy := by
  have hstorable : roomy.Storable := ⟨by decide, nofun, nofun⟩
  have hvalid : roomy.validate = .ok () := by rfl
  have hdigits : Toml.integer? "18446744073709551615".toList =
      Toml.word64? (natOfDigits 10 "18446744073709551615".toList) := by rfl
  have hvalue : natOfDigits 10 "18446744073709551615".toList = 0xFFFFFFFFFFFFFFFF := by decide
  have hinteger : Toml.integer? "18446744073709551615".toList = some (.int 0xFFFFFFFFFFFFFFFF) := by
    rw [hdigits, hvalue]
    exact if_pos (by decide)
  refine ⟨hstorable, hvalid, by decide, rfl, hinteger, ?_⟩
  exact (ofDocument_written hstorable hvalid).2 ⟨fun _ _ => trivial, rfl⟩

end LidarSync
