import LidarSync.Metrics.Recorder

/-!
# What reports do to a recorder

A report changes the series that it is about and no other one (`lookup_alter`, `filter_alter`), so a
counter grows only by what is counted on it (`Recorder.total_round`). Two recorders are alike when they
differ at most in how many clouds were refused. Every report keeps alike recorders alike: a report
about another metric finds the same series in both, and one about refusals is not looked at.
-/

namespace LidarSync

variable {κ β : Type} [DecidableEq κ]

theorem alter_cons (k : κ) (start : β) (f : β → β) (n : κ) (v : β) (rest : List (κ × β)) :
    alter k start f ((n, v) :: rest)
      = if n = k then (n, f v) :: rest else (n, v) :: alter k start f rest := rfl

/-- A change of one key, as seen through a choice of keys. -/
theorem filter_alter (p : κ → Bool) (k : κ) (start : β) (f : β → β) (l : List (κ × β)) :
    (alter k start f l).filter (p ·.1)
      = if p k then alter k start f (l.filter (p ·.1)) else l.filter (p ·.1) := by
  induction l with
  | nil =>
    cases hk : p k with
    | true => simp [alter, hk]
    | false => simp [alter, hk]
  | cons q rest ih =>
    obtain ⟨n, v⟩ := q
    rw [alter_cons]
    by_cases hn : n = k
    · subst hn
      cases hk : p n with
      | true => simp [alter_cons, hk]
      | false => simp [hk]
    · rw [if_neg hn, List.filter_cons, List.filter_cons, ih]
      cases hp : p n with
      | true =>
        cases hk : p k with
        | true => simp [alter_cons, hn]
        | false => simp
      | false => simp

theorem lookup_cons (n : κ) (v : β) (rest : List (κ × β)) (k : κ) :
    ((n, v) :: rest).lookup k = if k = n then some v else rest.lookup k := by
  by_cases hk : k = n
  · simp [hk]
  · rw [if_neg hk, List.lookup_cons, beq_false_of_ne hk]

/-- What a change of one key makes of each key. -/
theorem lookup_alter (k : κ) (start : β) (f : β → β) (l : List (κ × β)) (k' : κ) :
    (alter k start f l).lookup k'
      = if k' = k then some (f ((l.lookup k).getD start)) else l.lookup k' := by
  induction l with
  | nil => exact lookup_cons k (f start) [] k'
  | cons q rest ih =>
    obtain ⟨n, v⟩ := q
    rw [alter_cons]
    by_cases hn : n = k
    · subst hn
      by_cases hk : k' = n
      · simp [hk]
      · simp [hk, lookup_cons]
    · have hkn : ¬ k = n := fun heq => hn heq.symm
      rw [if_neg hn, lookup_cons, lookup_cons, lookup_cons, ih, if_neg hkn]
      by_cases hk : k' = n
      · subst hk
        rw [if_pos rfl, if_neg hn, if_pos rfl]
      · rw [if_neg hk, if_neg hk]

/-- Whether a series counts refused clouds. -/
def Series.isRejection (s : Series) : Bool := s.metric == "time_syncer_clouds_rejected_total"

theorem Series.isRejection_cloudsRejected (t : Topic) (reason : Rejection) :
    (cloudsRejected t reason).isRejection = true := by
  rfl

theorem Series.ne_of_metric {s s' : Series} (h : s.metric ≠ s'.metric) : s ≠ s' :=
  fun heq => h (congrArg Series.metric heq)

namespace Recorder

/-- The recorders differ at most in the refusals that they count. -/
structure Alike (r r' : Recorder) : Prop where
  counters : r.counters.filter (!·.1.isRejection) = r'.counters.filter (!·.1.isRejection)
  gauges : r.gauges = r'.gauges
  histograms : r.histograms = r'.histograms

namespace Alike

variable {r r' r'' : Recorder}

theorem refl (r : Recorder) : Alike r r := ⟨rfl, rfl, rfl⟩

theorem symm (h : Alike r r') : Alike r' r :=
  ⟨h.counters.symm, h.gauges.symm, h.histograms.symm⟩

theorem trans (h : Alike r r') (h' : Alike r' r'') : Alike r r'' :=
  ⟨h.counters.trans h'.counters, h.gauges.trans h'.gauges, h.histograms.trans h'.histograms⟩

theorem count (h : Alike r r') (s : Series) (n : Nat) : Alike (r.count s n) (r'.count s n) where
  counters := by
    have hcounters := h.counters
    unfold Recorder.count
    dsimp only
    rw [filter_alter fun k : Series => !k.isRejection,
      filter_alter fun k : Series => !k.isRejection, hcounters]
  gauges := h.gauges
  histograms := h.histograms

theorem tick (h : Alike r r') (s : Series) : Alike (r.tick s) (r'.tick s) := h.count s 1

theorem gauge (h : Alike r r') (s : Series) (x : Float) : Alike (r.gauge s x) (r'.gauge s x) where
  counters := h.counters
  gauges := by
    unfold Recorder.gauge
    rw [h.gauges]
  histograms := h.histograms

theorem sample (h : Alike r r') (s : Series) (x : Float) :
    Alike (r.sample s x) (r'.sample s x) where
  counters := h.counters
  gauges := h.gauges
  histograms := by
    unfold Recorder.sample
    rw [h.histograms]

theorem topic (h : Alike r r') (t : Topic) (status : TopicStatus) :
    Alike (r.topic t status) (r'.topic t status) := by
  cases status with
  | ok => exact h.gauge _ _
  | missing => exact (h.gauge _ _).tick _

theorem foldl {α : Type} {report : Recorder → α → Recorder}
    (hreport : ∀ r r' x, Alike r r' → Alike (report r x) (report r' x)) (h : Alike r r')
    (xs : List α) : Alike (xs.foldl report r) (xs.foldl report r') := by
  induction xs generalizing r r' with
  | nil => exact h
  | cons x xs ih => exact ih (hreport r r' x h)

theorem round (h : Alike r r') (s : SyncedSet) : Alike (r.round s) (r'.round s) := by
  unfold Recorder.round
  dsimp only
  apply foldl
  · exact fun _ _ t ht => ht.tick (Series.transformFailures t)
  apply foldl
  · exact fun _ _ p hp => hp.topic p.1 p.2
  apply gauge
  apply sample
  apply sample
  apply gauge
  apply tick
  exact h

/-- Counting a refusal changes nothing else. -/
theorem reject (r : Recorder) (t : Topic) (reason : Rejection) :
    Alike (r.tick (Series.cloudsRejected t reason)) r where
  counters := by
    unfold Recorder.tick Recorder.count
    dsimp only
    rw [filter_alter fun k : Series => !k.isRejection, Series.isRejection_cloudsRejected]
    rfl
  gauges := rfl
  histograms := rfl

end Alike

/-! ## Totals -/

variable {k : Series}

theorem total_count (r : Recorder) (s : Series) (n : Nat) (k : Series) :
    (r.count s n).total k = r.total k + if k = s then n else 0 := by
  unfold total Recorder.count
  dsimp only
  rw [lookup_alter]
  by_cases hk : k = s
  · rw [if_pos hk, if_pos hk, hk, Option.getD_some]
  · rw [if_neg hk, if_neg hk, Nat.add_zero]

theorem total_tick_of_ne {s : Series} (hk : k ≠ s) (r : Recorder) : (r.tick s).total k = r.total k := by
  unfold Recorder.tick
  rw [total_count, if_neg hk, Nat.add_zero]

theorem total_topic (hk : ∀ t, k ≠ Series.topicMissing t) (r : Recorder) (t : Topic)
    (status : TopicStatus) : (r.topic t status).total k = r.total k := by
  cases status with
  | ok => rfl
  | missing => exact total_tick_of_ne (hk t) (r.gauge (Series.topicStatus t) 0)

theorem total_foldl {α : Type} {report : Recorder → α → Recorder}
    (hreport : ∀ r x, (report r x).total k = r.total k) (r : Recorder) (xs : List α) :
    (xs.foldl report r).total k = r.total k := by
  induction xs generalizing r with
  | nil => rfl
  | cons x xs ih => exact (ih (report r x)).trans (hreport r x)

/-- A round counts on its trigger, on the topics that it misses and on those that fail. -/
theorem total_round (hrounds : ∀ t, k ≠ Series.rounds t) (hmissing : ∀ t, k ≠ Series.topicMissing t)
    (hfailures : ∀ t, k ≠ Series.transformFailures t) (r : Recorder) (s : SyncedSet) :
    (r.round s).total k = r.total k := by
  unfold Recorder.round
  dsimp only
  rw [total_foldl fun r t => total_tick_of_ne (hfailures t) r,
    total_foldl fun r (p : Topic × TopicStatus) => total_topic hmissing r p.1 p.2]
  exact total_tick_of_ne (hrounds s.details.trigger) r

end Recorder

end LidarSync
