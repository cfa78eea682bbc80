import LidarSync.Blueprint.Load
import LidarSync.Proofs.Document.Fields

/-!
# What the fields of a blueprint have room for

The whole numbers of a blueprint are unsigned words of a fixed width, and the parameters of a sink are
a map. `Blueprint.Storable` says so of a blueprint; every blueprint that is loaded is of this kind
(`Blueprint.storable_of_ofDocument`).
-/

namespace LidarSync

open Document

/-- The counts of a mock source are unsigned words of 32 and 64 bits. -/
structure CloudSource.Storable (s : CloudSource) : Prop where
  pointCount : s.pointCount < Width.word32.limit
  latency : s.latencyMs < Width.word64.limit
  startDelay : s.startDelayMs < Width.word64.limit

/-- The capacity of a sink is a size, and no parameter has two values. -/
structure SinkPlan.Storable (s : SinkPlan) : Prop where
  capacity : s.capacity < Width.size.limit
  params : s.params.Ascends

/-- A blueprint holds the numbers that its fields have room for. -/
structure Blueprint.Storable (b : Blueprint) : Prop where
  queueSize : b.synchronizer.queueSize < Width.size.limit
  clouds : ∀ s ∈ b.sources.clouds, s.Storable
  sinks : ∀ s ∈ b.sinks, s.Storable

/-! ## Loaded blueprints -/

section Decoders

open Document.Decoder
open Document.Fields (Ensures)

theorem SyncSettings.decoder_ensures :
    SyncSettings.decoder.Ensures fun s => s.queueSize < Width.size.limit := by
  refine Ensures.decoder (.seq (.seq (.seq (.seq (.seq (.map ?_ .any) .any)
    (.defaulted (natural_ensures .size) (by decide))) .any) .any) .any) _
  intro frame _ topics _ size hsize timeout _ offsets _ velocityTopic _
  exact hsize

theorem CloudSource.decoder_ensures : CloudSource.decoder.Ensures CloudSource.Storable := by
  refine Ensures.decoder (.seq (.seq (.seq (.seq (.seq (.seq (.map ?_ .any) .any) .any)
    (.defaulted (natural_ensures .word32) (by decide)))
    (.defaulted (natural_ensures .word64) (by decide)))
    (.defaulted (natural_ensures .word64) (by decide))) .any) _
  intro topic _ frame _ frequency _ count hcount latency hlatency delay hdelay enabled _
  exact ⟨hcount, hlatency, hdelay⟩

theorem Sources.decoder_ensures :
    Sources.decoder.Ensures fun s => ∀ c ∈ s.clouds, c.Storable := by
  have hclouds := listOf_ensures CloudSource.decoder_ensures
  refine Ensures.decoder
    (.seq (.map ?_ (.defaulted hclouds fun _ hc => absurd hc List.not_mem_nil)) .any) _
  intro clouds hclouds velocity _
  exact hclouds

theorem SinkPlan.decoder_ensures : SinkPlan.decoder.Ensures SinkPlan.Storable := by
  refine Ensures.decoder (.seq (.seq (.seq (.map ?_ .any) .any)
    (.defaulted (natural_ensures .size) (by decide)))
    (.defaulted (mapOf_ensures text) (Keyed.ascends_ofList []))) _
  intro name _ kind _ capacity hcapacity params hparams
  exact ⟨hcapacity, hparams⟩

theorem Blueprint.decoder_ensures : Blueprint.decoder.Ensures Blueprint.Storable := by
  have hsinks := listOf_ensures SinkPlan.decoder_ensures
  refine Ensures.decoder (.seq (.seq (.seq (.seq (.map ?_ .any)
    (.required SyncSettings.decoder_ensures)) .any)
    (.defaulted Sources.decoder_ensures fun _ hc => absurd hc List.not_mem_nil))
    (.defaulted hsinks fun _ hs => absurd hs List.not_mem_nil)) _
  intro version _ synchronizer hsize frames _ sources hclouds sinks hsinks
  exact ⟨hsize, hclouds, hsinks⟩

end Decoders

theorem Blueprint.ofDocument_eq_ok_iff {f : Format} {d : Document} {b : Blueprint} :
    ofDocument f d = .ok b ↔ Blueprint.decoder f d = .ok b ∧ b.validate = .ok () := by
  unfold ofDocument
  rw [bind_eq_ok]
  constructor
  · rintro ⟨b', hread, h⟩
    obtain ⟨_, hvalid, h⟩ := bind_eq_ok.1 h
    cases h
    exact ⟨mapError_eq_ok.1 hread, mapError_eq_ok.1 hvalid⟩
  · rintro ⟨hread, hvalid⟩
    exact ⟨b, mapError_eq_ok.2 hread, bind_eq_ok.2 ⟨(), mapError_eq_ok.2 hvalid, rfl⟩⟩

theorem Blueprint.storable_of_ofDocument {f : Format} {d : Document} {b : Blueprint}
    (h : ofDocument f d = .ok b) : b.Storable :=
  Blueprint.decoder_ensures (ofDocument_eq_ok_iff.1 h).1

end LidarSync
