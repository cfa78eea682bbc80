import LidarSync.Blueprint.Load
import LidarSync.Proofs.Blueprint.Storable
import LidarSync.Proofs.Round.Invariant
import LidarSync.Proofs.Sink.Plans
import LidarSync.Proofs.Source.Period
import LidarSync.Proofs.Source.Pool

/-!
# Which blueprints can be started

What has been loaded is valid, so that its synchronizer starts and the names and capacities of its
sinks are right. Of the frequencies of its sources validity says only that they are above zero. An
infinite one is turned away when the pool is made, and one from which no period follows lets the
delivery of its source fail. So a loaded blueprint can be started if its frequencies keep the limits
of `Source.period?_isSome_iff`, and only then (`Blueprint.startable_iff`).
-/

namespace LidarSync

/-- A frequency within the limits is a number. -/
theorem Source.isFinite_of_le_fastest {x : Float} (hpos : 0 < x) (hle : x ≤ fastest) :
    x.isFinite = true := by
  rcases Decimal.unpack_of_pos hpos with ⟨m, e, hm, hx⟩ | hx
  · change x.toModel.unpack.isFinite = true
    rw [hx]
    rfl
  · exact absurd hle (not_infinity_le_fastest hx)

theorem Sources.Valid.frequency_pos {topics : List Topic} {s : Sources} (h : s.Valid topics) :
    ∀ src ∈ s.enabled, 0 < src.frequency := by
  intro src hsrc
  rcases List.mem_append.1 hsrc with hmem | hmem
  · obtain ⟨v, hv, rfl⟩ := List.mem_map.1 hmem
    exact h.velocity v (Option.mem_toList.1 hv)
  · obtain ⟨c, hc, rfl⟩ := List.mem_map.1 hmem
    exact (h.clouds c (List.mem_filter.1 hc).1).frequency_pos

/-- Valid sources make a pool if no frequency is infinite. -/
theorem SourcePool.ofSources_isOk_iff {topics : List Topic} {s : Sources} (h : s.Valid topics)
    (capacity : Nat) :
    (∃ p, ofSources s capacity = .ok p) ↔ ∀ src ∈ s.enabled, src.frequency.isFinite = true := by
  simp only [ofSources_eq_ok_iff, exists_and_left, exists_eq, and_true, Source.check_eq_ok_iff]
  exact ⟨fun hall src hsrc => (hall src hsrc).1,
    fun hall src hsrc => ⟨hall src hsrc, h.frequency_pos src hsrc⟩⟩

namespace Blueprint

theorem validate_of_ofText {f : Document.Format} {text : String} {b : Blueprint}
    (h : ofText f text = .ok b) : b.validate = .ok () := by
  unfold ofText at h
  split at h
  · exact (ofDocument_eq_ok_iff.1 h).2
  · exact absurd h nofun

/-- What it takes to start a blueprint: a synchronizer, a pool of all sources, for each source a time
between two messages, and sinks that are at most unable to set up what they write to. -/
structure Startable (b : Blueprint) : Prop where
  synchronizer : ∃ s, Synchronizer.start b.synchronizer (.ofTransforms b.frames) = .ok s
  pool : ∀ capacity, ∃ p, SourcePool.ofSources b.sources capacity = .ok p
  periods : ∀ src ∈ b.sources.enabled, src.period?.isSome = true
  sinks : ∀ d fault, (Dispatcher.ofPlans b.sinks [] d).1 = .error fault →
    ∃ name e, fault = .setup name e

/-- A loaded blueprint can be started if each enabled source has a frequency above `tooSlow` and of at
most `fastest`, and only then. Whatever the frequencies are, its synchronizer starts and the names and
capacities of its sinks are right; its pool is made if they are finite. -/
theorem startable_iff {f : Document.Format} {text : String} {b : Blueprint}
    (h : ofText f text = .ok b) :
    (∃ s, Synchronizer.start b.synchronizer (.ofTransforms b.frames) = .ok s) ∧
    (∀ d fault, (Dispatcher.ofPlans b.sinks [] d).1 = .error fault →
      ∃ name e, fault = .setup name e) ∧
    (∀ capacity, (∃ p, SourcePool.ofSources b.sources capacity = .ok p) ↔
      ∀ src ∈ b.sources.enabled, src.frequency.isFinite = true) ∧
    (∀ src ∈ b.sources.enabled, src.period?.isSome = true ↔
      Source.tooSlow < src.frequency ∧ src.frequency ≤ Source.fastest) ∧
    (b.Startable ↔ ∀ src ∈ b.sources.enabled,
      Source.tooSlow < src.frequency ∧ src.frequency ≤ Source.fastest) := by
  obtain ⟨hsettings, -, hsources, hplans⟩ :=
    (validate_eq_ok_iff b).1 (validate_of_ofText h)
  have hsynchronizer : ∃ s, Synchronizer.start b.synchronizer (.ofTransforms b.frames) = .ok s :=
    ⟨_, Synchronizer.start_eq_ok_iff.2 ⟨hsettings, rfl⟩⟩
  have hsinks : ∀ d fault, (Dispatcher.ofPlans b.sinks [] d).1 = .error fault →
      ∃ name e, fault = .setup name e :=
    fun _ _ hfault => Dispatcher.setup_of_ofPlans hplans hfault
  have hpool := SourcePool.ofSources_isOk_iff hsources
  have hpositive := hsources.frequency_pos
  have hperiod : ∀ src ∈ b.sources.enabled, src.period?.isSome = true ↔
      Source.tooSlow < src.frequency ∧ src.frequency ≤ Source.fastest :=
    fun src hsrc => Source.period?_isSome_iff (hpositive src hsrc)
  refine ⟨hsynchronizer, hsinks, hpool, hperiod, ?_⟩
  constructor
  · exact fun hstart src hsrc => (hperiod src hsrc).1 (hstart.periods src hsrc)
  · intro hrange
    have hfinite : ∀ src ∈ b.sources.enabled, src.frequency.isFinite = true :=
      fun src hsrc => Source.isFinite_of_le_fastest (hpositive src hsrc) (hrange src hsrc).2
    exact {
      synchronizer := hsynchronizer
      pool := fun capacity => (hpool capacity).2 hfinite
      periods := fun src hsrc => (hperiod src hsrc).2 (hrange src hsrc)
      sinks := hsinks }

/-- Two lidars, one of them played by a mock source at a frequency. -/
def pairText (frequency : String) : String :=
  "[synchronizer]\noutput_frame = \"base_link\"\ninput_topics = [\"/lidar/top\", \"/lidar/left\"]\n"
    ++ "\n[[sources.clouds]]\ntopic = \"/lidar/top\"\nframe_id = \"lidar_top\"\nfrequency_hz = "
    ++ frequency ++ "\n"

/-- Whether the frequencies in `pairText` are loaded as finite numbers, and whether they have periods. -/
def pairChecks (frequency : String) : Option (List (Bool × Bool)) :=
  (ofText .toml (pairText frequency)).toOption.map fun b =>
    b.sources.enabled.map fun src => (src.frequency.isFinite, src.period?.isSome)

theorem ofText_of_pairChecks {frequency : String} {finite periodic : Bool}
    (h : pairChecks frequency = some [(finite, periodic)]) :
    ∃ b src, ofText .toml (pairText frequency) = .ok b ∧ b.sources.enabled = [src] ∧
      src.frequency.isFinite = finite ∧ src.period?.isSome = periodic := by
  unfold pairChecks at h
  cases hload : ofText .toml (pairText frequency) with
  | error e =>
    rw [hload] at h
    exact absurd h nofun
  | ok b =>
    rw [hload] at h
    obtain ⟨src, hsources, hsrc⟩ := List.map_eq_singleton_iff.1 (Option.some.inj h)
    obtain ⟨hfinite, hperiodic⟩ := Prod.mk.inj hsrc
    exact ⟨b, src, rfl, hsources, hfinite, hperiodic⟩

/-- Ten times a second is fine. -/
theorem startable_iff_pair : ∃ b, ofText .toml (pairText "10.0") = .ok b ∧ b.Startable := by
  obtain ⟨b, src, hload, hsources, -, hperiodic⟩ :=
    ofText_of_pairChecks (by decide +kernel : pairChecks "10.0" = some [(true, true)])
  obtain ⟨-, -, -, hperiod, hstart⟩ := startable_iff hload
  refine ⟨b, hload, hstart.2 fun src' hsrc' => (hperiod src' hsrc').1 ?_⟩
  rw [hsources, List.mem_singleton] at hsrc'
  rw [hsrc', hperiodic]

/-- An infinite frequency is loaded, and no pool is made of it. Of ten times in a nanosecond and of
once in `10 ^ 20` seconds a pool is made, but neither has a period. -/
theorem loaded_unstartable :
    (∃ b, ofText .toml (pairText "inf") = .ok b ∧ ¬ b.Startable ∧
      ∀ capacity, ¬ ∃ p, SourcePool.ofSources b.sources capacity = .ok p) ∧
    (∃ b, ofText .toml (pairText "1e10") = .ok b ∧ ¬ b.Startable ∧
      ∃ src ∈ b.sources.enabled, src.period? = none) ∧
    ∃ b, ofText .toml (pairText "1e-20") = .ok b ∧ ¬ b.Startable ∧
      ∃ src ∈ b.sources.enabled, src.period? = none := by
  have hnone : ∀ {frequency : String}, pairChecks frequency = some [(true, false)] →
      ∃ b, ofText .toml (pairText frequency) = .ok b ∧ ¬ b.Startable ∧
        ∃ src ∈ b.sources.enabled, src.period? = none := by
    intro frequency hchecks
    obtain ⟨b, src, hload, hsources, -, hperiodic⟩ := ofText_of_pairChecks hchecks
    have hmem : src ∈ b.sources.enabled := hsources ▸ List.mem_singleton_self src
    have hnone : src.period? = none :=
      Option.not_isSome_iff_eq_none.1 (ne_true_of_eq_false hperiodic)
    refine ⟨b, hload, fun hstart => ?_, src, hmem, hnone⟩
    exact absurd ((hstart.periods src hmem).symm.trans hperiodic) nofun
  refine ⟨?_, hnone (by decide +kernel), hnone (by decide +kernel)⟩
  obtain ⟨b, src, hload, hsources, hinfinite, -⟩ :=
    ofText_of_pairChecks (by decide +kernel : pairChecks "inf" = some [(false, false)])
  have hpool : ∀ capacity, ¬ ∃ p, SourcePool.ofSources b.sources capacity = .ok p := by
    rintro capacity ⟨p, hp⟩
    have hcheck := (SourcePool.ofSources_eq_ok_iff.1 hp).1 src (hsources ▸ List.mem_singleton_self src)
    exact absurd ((Source.check_eq_ok_iff.1 hcheck).1.symm.trans hinfinite) nofun
  exact ⟨b, hload, fun hstart => hpool 1 (hstart.pool 1), hpool⟩

end Blueprint

end LidarSync
