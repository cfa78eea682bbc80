import LidarSync.Proofs.Round.Moves

/-!
# Which clouds are taken in

A cloud is taken in when it can be packed and its topic is configured (`SyncSettings.accepts`). This
depends on the cloud, its topic and the settings alone, not on the state that the engine is in; a
cloud that is turned away leaves a mark in the metrics and nowhere else.
-/

namespace LidarSync

/-- Whether a cloud is taken in on a topic. -/
def SyncSettings.accepts (s : SyncSettings) (t : Topic) (c : Cloud) : Bool :=
  match c.packed with
  | .ok _ => decide (t ∈ s.inputTopics)
  | .error _ => false

/-- What is answered to the arrival of a cloud. The layout of the cloud is looked at first. -/
def SyncSettings.answer (s : SyncSettings) (t : Topic) (c : Cloud) : Except ArrivalFault Unit :=
  match c.packed with
  | .error fault => .error (.malformed c.frame fault)
  | .ok _ => if t ∈ s.inputTopics then .ok () else .error (.unknownTopic t)

theorem SyncSettings.accepts_eq_false_iff (s : SyncSettings) {t : Topic} {c : Cloud} :
    s.accepts t c = false ↔ ∃ fault, s.answer t c = .error fault := by
  unfold accepts answer
  cases c.packed with
  | error fault => exact iff_of_true rfl ⟨_, rfl⟩
  | ok packed =>
    by_cases ht : t ∈ s.inputTopics
    · simp [ht]
    · simp [ht]

theorem Collector.Sound.contains_iff {c : Collector} (h : c.Sound) {t : Topic} :
    c.contains t = true ↔ t ∈ c.topics := by
  rw [← h.mem_current, Keyed.mem_keys_iff]
  rfl

namespace Engine

variable {e : Engine} {s : SyncSettings} {t : Topic} {c : Cloud}

theorem cloud_answer (hc : e.collector.Sound) (htopics : e.collector.topics = s.inputTopics)
    (now : Instant) : (e.cloud now t c).1 = s.answer t c := by
  have hcontains := hc.contains_iff (t := t)
  rw [htopics] at hcontains
  unfold Engine.cloud accept SyncSettings.answer
  cases c.packed with
  | error fault => rfl
  | ok packed =>
    by_cases ht : t ∈ s.inputTopics
    · simp only [if_pos ht, if_pos (hcontains.2 ht)]
    · have hne : ¬ e.collector.contains t = true := fun h => ht (hcontains.1 h)
      simp only [if_neg ht, if_neg hne]

/-- A cloud that is taken in is packed, and its topic has a slot. -/
theorem cloud_of_accepts (hc : e.collector.Sound) (htopics : e.collector.topics = s.inputTopics)
    (h : s.accepts t c = true) (now : Instant) :
    ∃ packed a mid, e.collector.arrive t packed = some (a, mid) ∧
      e.cloud now t c = (.ok (), e.takeIn now t packed) := by
  unfold SyncSettings.accepts at h
  unfold Engine.cloud accept
  cases hpacked : c.packed with
  | error fault =>
    rw [hpacked] at h
    exact absurd h nofun
  | ok packed =>
    rw [hpacked] at h
    have ht : t ∈ e.collector.topics := by
      rw [htopics]
      exact of_decide_eq_true h
    have harrives : (e.collector.arrive t packed).isSome := hc.arrive_isSome_iff.2 ht
    obtain ⟨⟨a, mid⟩, harrive⟩ := Option.isSome_iff_exists.1 harrives
    refine ⟨packed, a, mid, harrive, ?_⟩
    simp only [if_pos (hc.contains_iff.2 ht)]

/-- A cloud that is turned away is counted. -/
theorem cloud_of_not_accepts (hc : e.collector.Sound)
    (htopics : e.collector.topics = s.inputTopics) (h : s.accepts t c = false) (now : Instant) :
    ∃ reason, (e.cloud now t c).2
      = ⟨{ e with metrics := e.metrics.tick (Series.cloudsRejected t reason) }, .kept⟩ := by
  unfold SyncSettings.accepts at h
  unfold Engine.cloud accept
  cases hpacked : c.packed with
  | error fault => exact ⟨_, rfl⟩
  | ok packed =>
    rw [hpacked] at h
    have ht : ¬ e.collector.contains t = true := by
      rw [hc.contains_iff, htopics]
      exact of_decide_eq_false h
    simp only [if_neg ht]
    exact ⟨_, rfl⟩

end Engine

end LidarSync
