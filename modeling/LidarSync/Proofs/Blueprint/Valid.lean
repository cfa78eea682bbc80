import LidarSync.Blueprint.Valid
import LidarSync.Proofs.Outcome

/-!
# What valid settings are

`SyncSettings.Valid` lists the rules that `SyncSettings.validate` goes through one after the other;
`SyncSettings.validate_eq_ok_iff` says that it passes exactly the settings that keep all of them.
`Sources.Valid` and `SinksValid` do the same for the sources and the sinks of a blueprint.
-/

namespace LidarSync

/-! ## Checks -/

theorem demandThat_eq_ok_iff {rule : Bool} {v : Violation} :
    demandThat rule v = .ok () ↔ rule = true := by
  unfold demandThat
  cases rule with
  | true => exact iff_of_true rfl rfl
  | false => exact iff_of_false nofun nofun

theorem bind_eq_ok_iff {check next : Except Violation Unit} :
    (do check; next) = .ok () ↔ check = .ok () ∧ next = .ok () := by
  cases check with
  | ok _ => exact (and_iff_right rfl).symm
  | error _ => exact iff_of_false nofun fun h => nomatch h.1

/-! ## Topics and offsets -/

theorem checkTopics_eq_ok_iff {before topics : List Topic} :
    checkTopics before topics = .ok () ↔
      (∀ t ∈ topics, Text.allBlank t = false ∧ t ∉ before) ∧ topics.Nodup := by
  induction topics generalizing before with
  | nil => exact iff_of_true rfl ⟨nofun, List.Pairwise.nil⟩
  | cons t rest ih =>
    unfold checkTopics
    rw [bind_eq_ok_iff, demandThat_eq_ok_iff, bind_eq_ok_iff, demandThat_eq_ok_iff, ih,
      List.nodup_cons, List.forall_mem_cons, Bool.not_eq_true', decide_eq_true_eq]
    constructor
    · rintro ⟨hblank, hbefore, hrest, hnodup⟩
      refine ⟨⟨⟨hblank, hbefore⟩, fun t' ht' => ?_⟩, fun ht => ?_, hnodup⟩
      · exact ⟨(hrest t' ht').1, fun hb => (hrest t' ht').2 (List.mem_cons_of_mem t hb)⟩
      · exact (hrest t ht).2 List.mem_cons_self
    · rintro ⟨⟨⟨hblank, hbefore⟩, hrest⟩, hfresh, hnodup⟩
      refine ⟨hblank, hbefore, fun t' ht' => ⟨(hrest t' ht').1, fun hb => ?_⟩, hnodup⟩
      rcases List.mem_cons.1 hb with rfl | hb
      · exact hfresh ht'
      · exact (hrest t' ht').2 hb

theorem checkOffsets_eq_ok_iff {index : Nat} {offsets : List Float} :
    checkOffsets index offsets = .ok () ↔
      ∀ x ∈ offsets, x.isFinite = true ∧ (decide (x < 0)) = false := by
  induction offsets generalizing index with
  | nil => exact iff_of_true rfl nofun
  | cons x rest ih =>
    unfold checkOffsets
    rw [bind_eq_ok_iff, demandThat_eq_ok_iff, ih, List.forall_mem_cons, Bool.and_eq_true,
      Bool.not_eq_true']

/-! ## Synchronizer settings -/

/-- The rules for synchronizer settings. -/
structure SyncSettings.Valid (s : SyncSettings) : Prop where
  frame : Text.allBlank s.outputFrame = false
  topics_length : 2 ≤ s.inputTopics.length
  topics_named : ∀ t ∈ s.inputTopics, Text.allBlank t = false
  topics_nodup : s.inputTopics.Nodup
  offsets_length : s.offsets = [] ∨ s.offsets.length = s.inputTopics.length
  offset_finite : ∀ x ∈ s.offsets, x.isFinite = true
  offset_nonneg : ∀ x ∈ s.offsets, ¬ x < 0
  timeout_finite : s.timeout.isFinite = true
  timeout_pos : ¬ s.timeout ≤ 0
  timeout_le : ¬ SyncSettings.maxTimeout < s.timeout
  queue : s.queueSize ≠ 0

/-- Validation passes exactly the settings that keep all rules. -/
theorem SyncSettings.validate_eq_ok_iff (s : SyncSettings) : s.validate = .ok () ↔ s.Valid := by
  unfold validate
  simp only [bind_eq_ok_iff, demandThat_eq_ok_iff, checkTopics_eq_ok_iff,
    checkOffsets_eq_ok_iff]
  constructor
  · rintro ⟨hframe, hsome, htwo, ⟨htopics, hnodup⟩, hcount, hoffsets, htimeout, hmax, hqueue⟩
    have hsome := of_decide_eq_true hsome
    have htwo := of_decide_eq_true htwo
    obtain ⟨hfinite, hpos⟩ := Bool.and_eq_true_iff.1 htimeout
    exact {
      frame := Bool.not_eq_true' _ ▸ hframe
      topics_length := by omega
      topics_named := fun t ht => (htopics t ht).1
      topics_nodup := hnodup
      offsets_length := by simpa using hcount
      offset_finite := fun x hx => (hoffsets x hx).1
      offset_nonneg := fun x hx => of_decide_eq_false (hoffsets x hx).2
      timeout_finite := hfinite
      timeout_pos := by simpa using hpos
      timeout_le := by simpa using hmax
      queue := of_decide_eq_true hqueue }
  · intro h
    have hlength := h.topics_length
    refine ⟨by simpa using h.frame, decide_eq_true (by omega), decide_eq_true (by omega),
      ⟨fun t ht => ⟨h.topics_named t ht, List.not_mem_nil⟩, h.topics_nodup⟩, ?_, ?_, ?_, ?_, ?_⟩
    · simpa using h.offsets_length
    · exact fun x hx => ⟨h.offset_finite x hx, decide_eq_false (h.offset_nonneg x hx)⟩
    · exact Bool.and_eq_true_iff.2 ⟨h.timeout_finite, by simpa using h.timeout_pos⟩
    · simpa using h.timeout_le
    · exact decide_eq_true h.queue

/-! ## Sources -/

/-- The rules for a mock source of clouds. -/
structure CloudSource.Valid (topics : List Topic) (s : CloudSource) : Prop where
  listed : s.topic ∈ topics
  frequency_pos : 0 < s.frequency
  frame : s.frame.isEmpty = false

theorem CloudSource.validate_eq_ok_iff {topics : List Topic} {s : CloudSource} :
    s.validate topics = .ok () ↔ s.Valid topics := by
  unfold validate
  rw [bind_eq_ok_iff, demandThat_eq_ok_iff, bind_eq_ok_iff, demandThat_eq_ok_iff,
    demandThat_eq_ok_iff, decide_eq_true_eq, decide_eq_true_eq, Bool.not_eq_true']
  exact ⟨fun ⟨hlisted, hpos, hframe⟩ => ⟨hlisted, hpos, hframe⟩,
    fun h => ⟨h.listed, h.frequency_pos, h.frame⟩⟩

/-- The rules for the mock sources. -/
structure Sources.Valid (topics : List Topic) (s : Sources) : Prop where
  clouds : ∀ c ∈ s.clouds, c.Valid topics
  velocity : ∀ v ∈ s.velocity, 0 < v.frequency

theorem Sources.validate_eq_ok_iff {topics : List Topic} {s : Sources} :
    s.validate topics = .ok () ↔ s.Valid topics := by
  unfold validate
  rw [bind_eq_ok_iff, forM_eq_ok_iff]
  simp only [CloudSource.validate_eq_ok_iff]
  cases hvelocity : s.velocity with
  | none =>
    refine ⟨fun h => ⟨h.1, ?_⟩, fun h => ⟨h.clouds, rfl⟩⟩
    rw [hvelocity]
    exact nofun
  | some v =>
    rw [demandThat_eq_ok_iff, decide_eq_true_eq]
    refine ⟨fun h => ⟨h.1, ?_⟩, fun h => ⟨h.clouds, h.velocity v hvelocity⟩⟩
    rw [hvelocity]
    rintro _ ⟨⟩
    exact h.2

/-! ## Sinks -/

/-- The rules for the sinks. -/
structure SinksValid (plans : List SinkPlan) : Prop where
  named : ∀ p ∈ plans, p.name.isEmpty = false
  capacity : ∀ p ∈ plans, p.capacity ≠ 0
  names_nodup : (plans.map (·.name)).Nodup

theorem checkSinks_cons_iff {before : List String} {index : Nat} {p : SinkPlan}
    {plans : List SinkPlan} :
    checkSinks before index (p :: plans) = .ok () ↔
      p.name.isEmpty = false ∧ p.name ∉ before ∧ p.capacity ≠ 0 ∧
        checkSinks (p.name :: before) (index + 1) plans = .ok () := by
  rw [checkSinks, bind_eq_ok_iff, demandThat_eq_ok_iff, bind_eq_ok_iff, demandThat_eq_ok_iff,
    bind_eq_ok_iff, demandThat_eq_ok_iff, Bool.not_eq_true', decide_eq_true_eq, decide_eq_true_eq]

theorem checkSinks_eq_ok_iff {before : List String} {index : Nat} {plans : List SinkPlan} :
    checkSinks before index plans = .ok () ↔
      SinksValid plans ∧ ∀ p ∈ plans, p.name ∉ before := by
  induction plans generalizing before index with
  | nil => exact iff_of_true rfl ⟨⟨nofun, nofun, List.Pairwise.nil⟩, nofun⟩
  | cons p plans ih =>
    rw [checkSinks_cons_iff, ih]
    constructor
    · rintro ⟨hname, hfresh, hcapacity, hvalid, hrest⟩
      have hnew : p.name ∉ plans.map (·.name) := by
        intro hmem
        obtain ⟨q, hq, heq⟩ := List.mem_map.1 hmem
        exact hrest q hq (heq ▸ List.mem_cons_self)
      refine ⟨⟨List.forall_mem_cons.2 ⟨hname, hvalid.named⟩,
        List.forall_mem_cons.2 ⟨hcapacity, hvalid.capacity⟩,
        List.nodup_cons.2 ⟨hnew, hvalid.names_nodup⟩⟩, List.forall_mem_cons.2 ⟨hfresh, ?_⟩⟩
      exact fun q hq hmem => hrest q hq (List.mem_cons_of_mem _ hmem)
    · rintro ⟨⟨hnamed, hcapacity, hnodup⟩, hfresh⟩
      obtain ⟨hnew, hnodup⟩ := List.nodup_cons.1 hnodup
      refine ⟨hnamed p List.mem_cons_self, hfresh p List.mem_cons_self,
        hcapacity p List.mem_cons_self, ⟨fun q hq => hnamed q (List.mem_cons_of_mem _ hq),
        fun q hq => hcapacity q (List.mem_cons_of_mem _ hq), hnodup⟩, fun q hq hmem => ?_⟩
      rcases List.mem_cons.1 hmem with heq | hbefore
      · exact hnew (List.mem_map.2 ⟨q, hq, heq⟩)
      · exact hfresh q (List.mem_cons_of_mem _ hq) hbefore

/-! ## Blueprints -/

theorem Blueprint.validate_eq_ok_iff (b : Blueprint) :
    b.validate = .ok () ↔ b.synchronizer.Valid ∧ checkFrames [] 0 b.frames = .ok () ∧
      b.sources.Valid b.synchronizer.inputTopics ∧ SinksValid b.sinks := by
  unfold validate
  rw [bind_eq_ok_iff, bind_eq_ok_iff, bind_eq_ok_iff, SyncSettings.validate_eq_ok_iff,
    Sources.validate_eq_ok_iff, checkSinks_eq_ok_iff]
  have hnone : ∀ p ∈ b.sinks, p.name ∉ ([] : List String) := fun _ _ => List.not_mem_nil
  rw [and_iff_left hnone]

/-- Two lidars under the usual timeout. -/
def SyncSettings.pair : SyncSettings where
  outputFrame := "base_link"
  inputTopics := ["/left", "/right"]

theorem SyncSettings.pair_valid : pair.Valid := pair.validate_eq_ok_iff.1 (by rfl)

end LidarSync
