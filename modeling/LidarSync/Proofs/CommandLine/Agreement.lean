import Mathlib.Data.List.Nodup
import LidarSync.Blueprint.Load
import LidarSync.CommandLine.Validation
import LidarSync.Proofs.Source.Pool

/-!
# Which source the commands take to feed a topic

Of several sources for one topic `validate` and `info` look at the one that is named first, enabled
or not (`sourceOf?`), while a run starts the last one that is enabled (`Sources.playing?`). So the
commands agree on a topic if nothing is enabled for it, or if the first source for it is enabled and
says the same as the last one that is (`agrees_iff`). A blueprint that names one source for each topic
leaves no room for disagreement.
-/

namespace LidarSync.CommandLine

variable {b : Blueprint} {t : Topic}

/-! ## Warnings -/

theorem eq_of_topicWarning {w : Warning} (h : topicWarning b t = some w) :
    w = .noSource t ∨ w = .disabledSource t := by
  unfold topicWarning at h
  split at h
  · exact Or.inl (Option.some.inj h).symm
  · split at h
    · exact absurd h nofun
    · exact Or.inr (Option.some.inj h).symm

theorem topicWarning_isSome_iff :
    (topicWarning b t).isSome = true ↔ ∀ c, sourceOf? b t = some c → c.enabled = false := by
  unfold topicWarning
  cases sourceOf? b t with
  | none => exact iff_of_true rfl nofun
  | some c =>
    cases henabled : c.enabled with
    | true =>
      refine iff_of_false ?_ fun hall => ?_
      · simp [henabled]
      · exact absurd (henabled.symm.trans (hall c rfl)) nofun
    | false =>
      refine iff_of_true ?_ ?_
      · simp [henabled]
      · rintro _ ⟨⟩
        exact henabled

/-- A topic has a warning about its source. -/
def Warned (b : Blueprint) (t : Topic) : Prop :=
  .noSource t ∈ warnings b ∨ .disabledSource t ∈ warnings b

theorem eq_of_frameWarning {g : FrameGraph Float} {target : String} {c : CloudSource} {w : Warning}
    (h : frameWarning g target c = some w) : w = .unconnectedFrame c.frame c.topic target := by
  unfold frameWarning at h
  split at h
  · exact absurd h nofun
  · exact (Option.some.inj h).symm

/-- The kinds of warnings, and what each is about. -/
theorem mem_warnings_iff {w : Warning} :
    w ∈ warnings b ↔ (w = .noSinks ∧ b.sinks.isEmpty = true) ∨
      (w = .noVelocity ∧ b.sources.velocity.isNone = true) ∨
      (∃ t ∈ b.synchronizer.inputTopics, topicWarning b t = some w) ∨
      ∃ c ∈ b.sources.clouds,
        frameWarning (.ofTransforms b.frames) b.synchronizer.outputFrame c = some w := by
  unfold warnings
  simp only [List.mem_append, List.mem_filterMap, List.mem_ite_nil_right, List.mem_singleton,
    or_assoc, and_comm]

theorem topicWarning_of_mem {w : Warning} (hw : w = .noSource t ∨ w = .disabledSource t)
    (h : w ∈ warnings b) : topicWarning b t = some w := by
  rcases mem_warnings_iff.1 h with ⟨rfl, -⟩ | ⟨rfl, -⟩ | ⟨t', -, htopic⟩ | ⟨c, -, hframe⟩
  · exact absurd hw (by simp)
  · exact absurd hw (by simp)
  · obtain rfl : t' = t := by
      rcases hw with rfl | rfl
      · rcases eq_of_topicWarning htopic with heq | heq
        · exact (Warning.noSource.inj heq).symm
        · exact absurd heq nofun
      · rcases eq_of_topicWarning htopic with heq | heq
        · exact absurd heq nofun
        · exact (Warning.disabledSource.inj heq).symm
    exact htopic
  · obtain rfl := eq_of_frameWarning hframe
    exact absurd hw (by simp)

/-- A source is warned about for its frame when the graph does not connect it with the output frame. -/
theorem unconnectedFrame_mem_iff {c : CloudSource} (hc : c ∈ b.sources.clouds) :
    .unconnectedFrame c.frame c.topic b.synchronizer.outputFrame ∈ warnings b ↔
      (FrameGraph.ofTransforms b.frames).lookup b.synchronizer.outputFrame c.frame = none := by
  constructor
  · intro h
    rcases mem_warnings_iff.1 h with ⟨heq, -⟩ | ⟨heq, -⟩ | ⟨t, -, htopic⟩ | ⟨c', -, hframe⟩
    · exact absurd heq nofun
    · exact absurd heq nofun
    · exact absurd (eq_of_topicWarning htopic) (by simp)
    · obtain ⟨hsame, -, -⟩ := Warning.unconnectedFrame.inj (eq_of_frameWarning hframe)
      rw [hsame]
      unfold frameWarning at hframe
      split at hframe
      · exact absurd hframe nofun
      · next hnone => exact hnone
  · intro hnone
    refine mem_warnings_iff.2 (Or.inr (Or.inr (Or.inr ⟨c, hc, ?_⟩)))
    unfold frameWarning
    rw [hnone]

/-- Input topics are warned about if the first source for them is not enabled, or if there is none. -/
theorem warned_iff (ht : t ∈ b.synchronizer.inputTopics) :
    Warned b t ↔ ∀ c, sourceOf? b t = some c → c.enabled = false := by
  rw [← topicWarning_isSome_iff, Option.isSome_iff_exists]
  constructor
  · rintro (hmem | hmem)
    · exact ⟨_, topicWarning_of_mem (Or.inl rfl) hmem⟩
    · exact ⟨_, topicWarning_of_mem (Or.inr rfl) hmem⟩
  · rintro ⟨w, hw⟩
    have hmem : w ∈ warnings b := mem_warnings_iff.2 (Or.inr (Or.inr (Or.inl ⟨t, ht, hw⟩)))
    rcases eq_of_topicWarning hw with rfl | rfl
    · exact Or.inl hmem
    · exact Or.inr hmem

/-! ## Sources that are shown -/

theorem mem_of_sourceOf? {c : CloudSource} (h : sourceOf? b t = some c) :
    c ∈ b.sources.clouds ∧ c.topic = t := by
  have htopic := List.find?_some h
  exact ⟨List.mem_of_find?_eq_some h, beq_iff_eq.1 htopic⟩

/-- A blueprint with one source for each topic shows the one that is started. -/
theorem sourceOf?_of_nodup {c : CloudSource} (hnodup : (b.sources.clouds.map (·.topic)).Nodup)
    (h : b.sources.playing? t = some c) : sourceOf? b t = some c := by
  obtain ⟨hmem, -, htopic⟩ := Sources.mem_of_playing? h
  have hsome : (sourceOf? b t).isSome = true := by
    unfold sourceOf?
    rw [List.find?_isSome]
    exact ⟨c, hmem, beq_iff_eq.2 htopic⟩
  obtain ⟨c', hc'⟩ := Option.isSome_iff_exists.1 hsome
  obtain ⟨hmem', htopic'⟩ := mem_of_sourceOf? hc'
  rw [hc', List.inj_on_of_nodup_map hnodup hmem' hmem (htopic'.trans htopic.symm)]

/-! ## Sources that are started -/

/-- The sources for a topic among those that a pool has started. -/
def startedFor (p : SourcePool) (t : Topic) (clock : SourceClock) (now : Instant) : List Source :=
  ((p.startAll clock now).idle.map (·.source)).filter (·.topic? == some t)

/-- If all sources have periods, the last one enabled for a topic is started, and no other one. -/
theorem startedFor_eq {s : Sources} {capacity : Nat} {p : SourcePool}
    (h : SourcePool.ofSources s capacity = .ok p)
    (hperiods : ∀ src ∈ s.enabled, src.period?.isSome = true) (t : Topic) (clock : SourceClock)
    (now : Instant) :
    startedFor p t clock now = (s.playing? t).toList.map CloudSource.toSource := by
  unfold startedFor
  rw [SourcePool.sources_startAll clock now h hperiods, s.filter_pooled]

/-! ## Agreement -/

/-- What it means that the commands agree on a topic: there is a warning about its source exactly if
nothing delivers it, and if something does, then the source that is shown for it is enabled and is the
one that is started. -/
structure Agrees (b : Blueprint) (p : SourcePool) (t : Topic) : Prop where
  warned_iff : Warned b t ↔ t ∉ p.topics
  shown : t ∈ p.topics → ∃ c, sourceOf? b t = some c ∧ c.enabled = true ∧
    ∀ clock now, startedFor p t clock now = [c.toSource]

section Agreement

variable {capacity : Nat} {p : SourcePool}

theorem agrees_of_idle (h : SourcePool.ofSources b.sources capacity = .ok p)
    (ht : t ∈ b.synchronizer.inputTopics) (hidle : b.sources.playing? t = none) : Agrees b p t := by
  have hmissing : t ∉ p.topics := by
    rw [SourcePool.mem_topics_iff h, hidle]
    exact Bool.false_ne_true
  refine ⟨iff_of_true ((warned_iff ht).2 fun c hc => ?_) hmissing, fun hmem => absurd hmem hmissing⟩
  obtain ⟨hmem, htopic⟩ := mem_of_sourceOf? hc
  exact Sources.playing?_eq_none_iff.1 hidle c hmem htopic

theorem agrees_iff_of_playing (h : SourcePool.ofSources b.sources capacity = .ok p)
    (hperiods : ∀ src ∈ b.sources.enabled, src.period?.isSome = true)
    (ht : t ∈ b.synchronizer.inputTopics) {c : CloudSource} (hc : b.sources.playing? t = some c) :
    Agrees b p t ↔ ∃ c', sourceOf? b t = some c' ∧ c'.enabled = true ∧ c'.toSource = c.toSource := by
  have hmem : t ∈ p.topics := by
    rw [SourcePool.mem_topics_iff h, hc]
    rfl
  have hstarted : ∀ clock now, startedFor p t clock now = [c.toSource] := by
    intro clock now
    rw [startedFor_eq h hperiods, hc]
    rfl
  constructor
  · intro hagrees
    obtain ⟨c', hshown, henabled, hstarted'⟩ := hagrees.shown hmem
    have hsame := (hstarted' ⟨0, 0⟩ 0).symm.trans (hstarted ⟨0, 0⟩ 0)
    exact ⟨c', hshown, henabled, (List.cons.inj hsame).1⟩
  · rintro ⟨c', hshown, henabled, hsame⟩
    have hunwarned : ¬ Warned b t := by
      rw [warned_iff ht]
      exact fun hall => absurd (henabled.symm.trans (hall c' hshown)) nofun
    exact ⟨iff_of_false hunwarned (not_not_intro hmem),
      fun _ => ⟨c', hshown, henabled, fun clock now => hsame ▸ hstarted clock now⟩⟩

/-- The commands agree on an input topic if no source is enabled for it, or if the first source for it
is enabled and is started just as the last one that is enabled. A run starts that one in any case. -/
theorem agrees_iff (h : SourcePool.ofSources b.sources capacity = .ok p)
    (hperiods : ∀ src ∈ b.sources.enabled, src.period?.isSome = true) :
    (∀ t clock now,
      startedFor p t clock now = (b.sources.playing? t).toList.map CloudSource.toSource) ∧
    (∀ t ∈ b.synchronizer.inputTopics, Agrees b p t ↔
      (∀ c ∈ b.sources.clouds, c.topic = t → c.enabled = false) ∨
        ∃ c c', sourceOf? b t = some c ∧ c.enabled = true ∧
          b.sources.playing? t = some c' ∧ c.toSource = c'.toSource) ∧
    ((b.sources.clouds.map (·.topic)).Nodup →
      ∀ t ∈ b.synchronizer.inputTopics, Agrees b p t) := by
  refine ⟨startedFor_eq h hperiods, fun t ht => ?_, fun hnodup t ht => ?_⟩
  · rw [← Sources.playing?_eq_none_iff]
    cases hplaying : b.sources.playing? t with
    | none => exact iff_of_true (agrees_of_idle h ht hplaying) (Or.inl rfl)
    | some c' =>
      rw [agrees_iff_of_playing h hperiods ht hplaying]
      constructor
      · rintro ⟨c, hshown, henabled, hsame⟩
        exact Or.inr ⟨c, c', hshown, henabled, rfl, hsame⟩
      · rintro (hnone | ⟨c, c'', hshown, henabled, hsome, hsame⟩)
        · exact absurd hnone nofun
        · obtain rfl := Option.some.inj hsome
          exact ⟨c, hshown, henabled, hsame⟩
  · cases hplaying : b.sources.playing? t with
    | none => exact agrees_of_idle h ht hplaying
    | some c =>
      exact (agrees_iff_of_playing h hperiods ht hplaying).2
        ⟨c, sourceOf?_of_nodup hnodup hplaying, (Sources.mem_of_playing? hplaying).2.1, rfl⟩

end Agreement

/-- Two lidars. Of the two mock sources for one of them only the second is enabled. -/
def replacedText : String :=
  "[synchronizer]\noutput_frame = \"base_link\"\ninput_topics = [\"/lidar/top\", \"/lidar/left\"]\n"
    ++ "\n[[sources.clouds]]\ntopic = \"/lidar/top\"\nframe_id = \"base_link\"\nfrequency_hz = 10.0\n"
    ++ "enabled = false\n"
    ++ "\n[[sources.clouds]]\ntopic = \"/lidar/top\"\nframe_id = \"base_link\"\nfrequency_hz = 10.0\n"

/-- That the first source for a topic is disabled, that another one is enabled, that the other topic has
none, and that all that is enabled can be started. -/
structure Replaced (b : Blueprint) (p : SourcePool) : Prop where
  pool : SourcePool.ofSources b.sources 1 = .ok p
  periods : ∀ src ∈ b.sources.enabled, src.period?.isSome = true
  topics : b.synchronizer.inputTopics = ["/lidar/top", "/lidar/left"]
  shown : (sourceOf? b "/lidar/top").map (·.enabled) = some false
  played : (b.sources.playing? "/lidar/top").isSome = true
  idle : b.sources.playing? "/lidar/left" = none

theorem loaded_replaced : ∃ b p, Blueprint.ofText .toml replacedText = .ok b ∧ Replaced b p := by
  have hchecks : (Blueprint.ofText .toml replacedText).toOption.map (fun b =>
      (b.synchronizer.inputTopics, (sourceOf? b "/lidar/top").map (·.enabled),
        (b.sources.playing? "/lidar/top").isSome, (b.sources.playing? "/lidar/left").isNone,
        b.sources.enabled.all fun src => src.check.toBool && src.period?.isSome))
      = some (["/lidar/top", "/lidar/left"], some false, true, true, true) := by
    decide +kernel
  cases hload : Blueprint.ofText .toml replacedText with
  | error e =>
    rw [hload] at hchecks
    exact absurd hchecks nofun
  | ok b =>
    rw [hload] at hchecks
    simp only [Except.toOption, Option.map_some, Option.some.injEq, Prod.mk.injEq,
      List.all_eq_true, Bool.and_eq_true, Option.isNone_iff_eq_none] at hchecks
    obtain ⟨htopics, hshown, hplayed, hidle, hstarts⟩ := hchecks
    have hpass : ∀ src ∈ b.sources.enabled, src.check = .ok () := by
      intro src hsrc
      have hcheck := (hstarts src hsrc).1
      cases heq : src.check with
      | ok _ => rfl
      | error e =>
        rw [heq] at hcheck
        exact absurd hcheck nofun
    exact ⟨b, _, rfl, SourcePool.ofSources_eq_ok_iff.2 ⟨hpass, rfl⟩,
      fun src hsrc => (hstarts src hsrc).2, htopics, hshown, hplayed, hidle⟩

/-- The commands agree on the topic without a source, and not on the one whose first source is
disabled. -/
theorem agrees_iff_replaced : ∃ b p, Blueprint.ofText .toml replacedText = .ok b ∧
    SourcePool.ofSources b.sources 1 = .ok p ∧ Agrees b p "/lidar/left" ∧
    ¬ Agrees b p "/lidar/top" := by
  obtain ⟨b, p, hload, hb⟩ := loaded_replaced
  obtain ⟨-, hagrees, -⟩ := agrees_iff hb.pool hb.periods
  have hleft : "/lidar/left" ∈ b.synchronizer.inputTopics := by
    rw [hb.topics]
    decide
  have htop : "/lidar/top" ∈ b.synchronizer.inputTopics := by
    rw [hb.topics]
    decide
  refine ⟨b, p, hload, hb.pool,
    (hagrees _ hleft).2 (Or.inl (Sources.playing?_eq_none_iff.1 hb.idle)), fun h => ?_⟩
  have hplayed := hb.played
  have hshown := hb.shown
  rcases (hagrees _ htop).1 h with hnone | ⟨c, c', hc, henabled, -⟩
  · rw [Sources.playing?_eq_none_iff.2 hnone] at hplayed
    exact absurd hplayed nofun
  · rw [hc] at hshown
    exact absurd (henabled.symm.trans (Option.some.inj hshown)) nofun

/-- Of a topic that a run delivers `validate` says that its source is disabled. -/
theorem replaced_warned : ∃ b p, Blueprint.ofText .toml replacedText = .ok b ∧
    SourcePool.ofSources b.sources 1 = .ok p ∧
    (∀ src ∈ b.sources.enabled, src.period?.isSome = true) ∧
    "/lidar/top" ∈ b.synchronizer.inputTopics ∧ "/lidar/top" ∈ p.topics ∧
    Warned b "/lidar/top" ∧ ¬ Agrees b p "/lidar/top" := by
  obtain ⟨b, p, hload, hb⟩ := loaded_replaced
  have htop : "/lidar/top" ∈ b.synchronizer.inputTopics := by
    rw [hb.topics]
    decide
  have hdelivered : "/lidar/top" ∈ p.topics := (SourcePool.mem_topics_iff hb.pool).2 hb.played
  have hwarned : Warned b "/lidar/top" := by
    refine (warned_iff htop).2 fun c hc => ?_
    have hshown := hb.shown
    rw [hc] at hshown
    exact Option.some.inj hshown
  exact ⟨b, p, hload, hb.pool, hb.periods, htop, hdelivered, hwarned,
    fun hagrees => hagrees.warned_iff.1 hwarned hdelivered⟩

end LidarSync.CommandLine
