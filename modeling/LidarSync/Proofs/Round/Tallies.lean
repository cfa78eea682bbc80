import LidarSync.Metrics.RoundTally
import LidarSync.Proofs.Round.Backpressure
import Mathlib.Algebra.BigOperators.Group.Finset.Basic
import Mathlib.Data.List.Sort

/-!
# Two tallies of the rounds

An engine tells its recorder of every set that it builds, and whoever takes the sets can add them up
in a `RoundTally`. The recorder goes by the diagnostics and the lists of a set, the tally by its
clouds. Each is brought to counts over the sets alone:

* `Recorder.ToldOf`, what a recorder knows of rounds that was told of sets,
* `RoundTally.AddsUp`, what a tally is to which sets were added.

The counts are the same because a set shares out its topics (`SyncedSet.Apportioned`): those without
a cloud are the missing ones together with the failed ones, and the diagnostics name just them.
`Interplay.tallies_agree` says it of every interleaving.
-/

namespace LidarSync

open Keyed (get?)

/-! ## Counts by name -/

/-- Two counts that appear with their first unit are the same when they come to the same. -/
theorem eq_of_getD_eq {a b : Option Nat} (ha : a ≠ some 0) (hb : b ≠ some 0)
    (h : a.getD 0 = b.getD 0) : a = b := by
  cases a with
  | none =>
    cases b with
    | none => rfl
    | some n => exact absurd (congrArg some h.symm) hb
  | some m =>
    cases b with
    | none => exact absurd (congrArg some h) ha
    | some n => exact congrArg some h

/-- Every name is counted once, under the topic that it is. -/
theorem sum_count_eq_length {topics names : List Topic} (hnodup : topics.Nodup)
    (hsub : ∀ t ∈ names, t ∈ topics) : (topics.map fun t => names.count t).sum = names.length := by
  have hcard := Multiset.sum_count_eq_card (s := topics.toFinset) (m := (names : Multiset Topic))
    fun t ht => List.mem_toFinset.2 (hsub t (Multiset.mem_coe.1 ht))
  simp only [Multiset.coe_count, Multiset.coe_card] at hcard
  rw [← List.sum_toFinset _ hnodup, hcard]

namespace Keyed

theorem getD_bump (k : String) (m : Keyed Nat) (k' : String) :
    (get? (bump k 1 m) k').getD 0 = (get? m k').getD 0 + if k = k' then 1 else 0 := by
  unfold bump
  rw [get?_insert]
  by_cases hk : k = k'
  · subst hk
    rw [if_pos rfl, if_pos rfl]
    rfl
  · rw [if_neg (Ne.symm hk), if_neg hk]
    rfl

theorem getD_foldl_bump (names : List String) (m : Keyed Nat) (k : String) :
    (get? (names.foldl (fun c name => c.bump name 1) m) k).getD 0
      = (get? m k).getD 0 + names.count k := by
  induction names generalizing m with
  | nil => rfl
  | cons name names ih =>
    rw [List.foldl_cons, ih, getD_bump, List.count_cons]
    by_cases hk : name = k
    · simp [hk]
      omega
    · simp [hk]

theorem get?_bump_ne_zero {m : Keyed Nat} (h : ∀ k, get? m k ≠ some 0) (name k : String) :
    get? (m.bump name 1) k ≠ some 0 := by
  unfold bump
  rw [get?_insert]
  split
  · exact fun heq => absurd (Option.some.inj heq) (Nat.succ_ne_zero _)
  · exact h k

end Keyed

/-! ## What a set is counted on -/

/-- The topics that diagnostics show as missing. -/
def Diagnostics.missing (d : Diagnostics) : List Topic := d.topics.namesWhere (· == .missing)

theorem Diagnostics.missing_ofMissing {topics absent : List Topic}
    (hsorted : absent.Pairwise (· < ·)) (hsub : ∀ t ∈ absent, t ∈ topics) :
    (ofMissing topics absent).missing = absent := by
  have hascends := Keyed.ascends_of_keys (keys_ofMissing topics absent)
  apply (Keyed.namesWhere_pairwise hascends _).eq_of_mem_iff hsorted
  intro t
  rw [Keyed.mem_namesWhere_iff hascends]
  constructor
  · rintro ⟨status, hstatus, hmissing⟩
    have ht : t ∈ topics := by
      rw [← mem_ascending, ← keys_ofMissing topics absent, Keyed.mem_keys_iff, hstatus]
      rfl
    rw [get?_ofMissing ht] at hstatus
    cases hstatus
    by_contra hnot
    rw [if_neg hnot] at hmissing
    exact absurd hmissing nofun
  · intro ht
    exact ⟨.missing, by rw [get?_ofMissing (hsub t ht), if_pos ht], rfl⟩

/-- Whether a series counts something about rounds. -/
def Series.countsRounds (k : Series) : Bool :=
  k.metric ∈ ["time_syncer_rounds_total", "time_syncer_topic_missing_total",
    "time_syncer_transform_failures_total"]

theorem Series.ne_of_countsRounds {k s : Series} (hk : k.countsRounds = true)
    (hs : s.countsRounds = false) : k ≠ s := by
  rintro rfl
  exact absurd (hk.symm.trans hs) nofun

namespace SyncedSet

/-- How often a set is counted on a series. -/
def countOn (set : SyncedSet) (k : Series) : Nat :=
  (if k = Series.rounds set.details.trigger then 1 else 0)
    + set.details.diagnostics.missing.countP (k = Series.topicMissing ·)
    + set.details.failed.countP (k = Series.transformFailures ·)

/-- Series of different metrics are different, whatever their topics are. -/
theorem countP_eq_zero_of_metric {k : Series} {series : Topic → Series}
    (h : ∀ t, k.metric ≠ (series t).metric) (topics : List Topic) :
    topics.countP (k = series ·) = 0 := by
  rw [List.countP_eq_zero]
  intro t _ heq
  exact Series.ne_of_metric (h t) (of_decide_eq_true heq)

theorem countP_eq_count {series : Topic → Series} (h : ∀ t t', series t = series t' → t = t')
    (t : Topic) (topics : List Topic) : topics.countP (series t = series ·) = topics.count t := by
  unfold List.count
  apply List.countP_congr
  intro t' _
  rw [decide_eq_true_iff, beq_iff_eq]
  constructor
  · exact fun heq => (h t t' heq).symm
  · rintro rfl
    rfl

theorem countOn_rounds (set : SyncedSet) (t : Trigger) :
    set.countOn (Series.rounds t) = if set.details.trigger = t then 1 else 0 := by
  unfold countOn
  rw [countP_eq_zero_of_metric (by simp [Series.rounds, Series.topicMissing]),
    countP_eq_zero_of_metric (by simp [Series.rounds, Series.transformFailures])]
  cases t <;> cases set.details.trigger <;> simp [Series.rounds, Trigger.label]

theorem countOn_topicMissing (set : SyncedSet) (t : Topic) :
    set.countOn (Series.topicMissing t) = set.details.diagnostics.missing.count t := by
  unfold countOn
  rw [if_neg (by simp [Series.rounds, Series.topicMissing]),
    countP_eq_count (by simp [Series.topicMissing]),
    countP_eq_zero_of_metric (by simp [Series.topicMissing, Series.transformFailures])]
  omega

theorem countOn_transformFailures (set : SyncedSet) (t : Topic) :
    set.countOn (Series.transformFailures t) = set.details.failed.count t := by
  unfold countOn
  rw [if_neg (by simp [Series.rounds, Series.transformFailures]),
    countP_eq_zero_of_metric (by simp [Series.topicMissing, Series.transformFailures]),
    countP_eq_count (by simp [Series.transformFailures])]
  omega

/-- A set whose topics without a cloud are just the missing ones and the failed ones, each once. -/
structure Apportioned (topics : List Topic) (set : SyncedSet) : Prop
    extends set.Faithful topics where
  shared : (set.details.missing ++ set.details.failed).Perm set.absent

namespace Apportioned

variable {topics : List Topic} {set : SyncedSet}

theorem absent_pairwise (h : set.Apportioned topics) : set.absent.Pairwise (· < ·) :=
  Keyed.namesWhere_pairwise (Keyed.ascends_of_keys h.keys_eq) _

theorem mem_topics (h : set.Apportioned topics) {t : Topic} (ht : t ∈ set.absent) : t ∈ topics := by
  rw [← mem_ascending, ← h.keys_eq, Keyed.mem_keys_iff, h.mem_absent_iff.1 ht]
  rfl

theorem mem_topics_of_failed (h : set.Apportioned topics) {t : Topic}
    (ht : t ∈ set.details.failed) : t ∈ topics :=
  h.mem_topics ((h.covered t).2 (Or.inr ht))

theorem diagnostics_missing (h : set.Apportioned topics) :
    set.details.diagnostics.missing = set.absent := by
  rw [h.diagnostics_eq]
  exact Diagnostics.missing_ofMissing h.absent_pairwise fun _ => h.mem_topics

theorem length_absent (h : set.Apportioned topics) :
    set.details.missing.length + set.details.failed.length = set.absent.length := by
  rw [← List.length_append, h.shared.length_eq]

end Apportioned

end SyncedSet

/-- The topics of a round without a cloud are the missing ones and the failed ones, each once. -/
theorem AlignedRound.shared {r : AlignedRound} (h : Keyed.Ascends r.topics) :
    (r.missing ++ r.failed).Perm r.notSynchronized := by
  have hnodup : ∀ {l : List Topic}, l.Pairwise (· < ·) → l.Nodup :=
    fun hl => hl.imp fun hlt => ne_of_lt hlt
  have hdisjoint : (r.missing ++ r.failed).Nodup :=
    (hnodup (missing_pairwise h)).append (hnodup (failed_pairwise h)) fun _ =>
      not_failed_of_missing h
  have habsent : r.notSynchronized.Nodup :=
    hnodup (Keyed.namesWhere_pairwise h fun a => a.cloud?.isNone)
  rw [List.perm_ext_iff_of_nodup hdisjoint habsent]
  intro t
  rw [List.mem_append]
  exact (mem_notSynchronized_iff h).symm

/-! ## What the recorder is told -/

namespace Recorder

variable {r : Recorder} {k : Series}

theorem total_foldl_tick (series : Topic → Series) (r : Recorder) (topics : List Topic) :
    (topics.foldl (fun r t => r.tick (series t)) r).total k
      = r.total k + topics.countP (k = series ·) := by
  induction topics generalizing r with
  | nil => rfl
  | cons t topics ih =>
    rw [List.foldl_cons, ih, List.countP_cons]
    unfold Recorder.tick
    rw [total_count]
    simp only [decide_eq_true_eq]
    omega

/-- Of the statuses of topics, those of the missing ones are counted. -/
theorem total_foldl_topic (r : Recorder) (topics : Keyed TopicStatus) :
    (topics.foldl (fun r (t, status) => r.topic t status) r).total k
      = r.total k + (topics.namesWhere (· == .missing)).countP (k = Series.topicMissing ·) := by
  induction topics generalizing r with
  | nil => rfl
  | cons p topics ih =>
    obtain ⟨t, status⟩ := p
    rw [List.foldl_cons, ih]
    unfold Keyed.namesWhere
    cases status with
    | ok => rfl
    | missing =>
      have hhead : (r.topic t .missing).total k
          = r.total k + if k = Series.topicMissing t then 1 else 0 :=
        total_count (r.gauge (Series.topicStatus t) 0) (Series.topicMissing t) 1 k
      rw [hhead, List.filter_cons_of_pos rfl, List.map_cons, List.countP_cons]
      simp only [decide_eq_true_eq]
      omega

theorem total_round_eq (r : Recorder) (set : SyncedSet) (k : Series) :
    (r.round set).total k = r.total k + set.countOn k := by
  unfold Recorder.round SyncedSet.countOn Diagnostics.missing
  dsimp only
  rw [total_foldl_tick, total_foldl_topic]
  have htrigger : ∀ id processing cycle absent,
      ((((((r.tick (Series.rounds set.details.trigger)).gauge Series.lastRoundId id).sample
        Series.processingTime processing).sample Series.cycleTime cycle).gauge
          Series.topicsMissing absent)).total k
        = r.total k + if k = Series.rounds set.details.trigger then 1 else 0 :=
    fun _ _ _ _ => total_count r (Series.rounds set.details.trigger) 1 k
  rw [htrigger]
  omega

/-- No counter shows zero: it is there from its first unit on. -/
def Counted (r : Recorder) : Prop := ∀ k, r.counters.lookup k ≠ some 0

theorem Counted.count (h : r.Counted) (s : Series) {n : Nat} (hn : n ≠ 0) :
    (r.count s n).Counted := by
  intro k
  unfold Recorder.count
  dsimp only
  rw [lookup_alter]
  split
  · intro heq
    have hsum := Option.some.inj heq
    omega
  · exact h k

theorem Counted.round (h : r.Counted) (set : SyncedSet) : (r.round set).Counted := by
  unfold Recorder.round
  dsimp only
  refine List.foldlRecOn _ _ ?_ fun r hr t _ => hr.count _ one_ne_zero
  refine List.foldlRecOn _ _ ?_ fun r hr p _ => ?_
  · exact h.count (Series.rounds set.details.trigger) one_ne_zero
  · obtain ⟨t, status⟩ := p
    cases status with
    | ok => exact hr
    | missing => exact Counted.count (r := r.gauge (Series.topicStatus t) 0) hr _ one_ne_zero

/-- Of the gauges that are not about single topics, a round sets two. -/
theorem gauges_round {g : Series} (hg : ∀ t, g.metric ≠ (Series.topicStatus t).metric)
    (r : Recorder) (set : SyncedSet) :
    (r.round set).gauges.lookup g
      = if g = Series.topicsMissing then
          some (Float.ofNat (set.details.missing.length + set.details.failed.length))
        else if g = Series.lastRoundId then some (Float.ofNat set.roundId)
        else r.gauges.lookup g := by
  have hticks : ∀ (topics : List Topic) (r : Recorder),
      (topics.foldl (fun r t => r.tick (Series.transformFailures t)) r).gauges = r.gauges :=
    fun topics r => List.foldlRecOn (motive := fun r' : Recorder => r'.gauges = r.gauges)
      topics _ rfl fun _ hr _ _ => hr
  have htopics : ∀ (topics : Keyed TopicStatus) (r : Recorder),
      (topics.foldl (fun r (t, status) => r.topic t status) r).gauges.lookup g
        = r.gauges.lookup g := by
    intro topics r
    refine List.foldlRecOn (motive := fun r' : Recorder => r'.gauges.lookup g = r.gauges.lookup g)
      topics _ rfl fun r' hr p _ => ?_
    obtain ⟨t, status⟩ := p
    have hother : ∀ x, (Recorder.gauge (Series.topicStatus t) x r').gauges.lookup g
        = r.gauges.lookup g := by
      intro x
      unfold Recorder.gauge
      dsimp only
      rw [lookup_alter, if_neg (Series.ne_of_metric (hg t)), hr]
    cases status with
    | ok => exact hother 1
    | missing => exact hother 0
  unfold Recorder.round
  dsimp only
  rw [hticks, htopics]
  unfold Recorder.gauge Recorder.sample Recorder.tick Recorder.count
  dsimp only
  rw [lookup_alter, lookup_alter]

/-- What a recorder knows of rounds that was told of sets, and otherwise of nothing about rounds. -/
structure ToldOf (sets : List SyncedSet) (r : Recorder) : Prop where
  total_eq : ∀ k, k.countsRounds = true → r.total k = (sets.map (·.countOn k)).sum
  counted : r.Counted
  roundId_eq : r.gauges.lookup Series.lastRoundId
    = sets.getLast?.map fun set => Float.ofNat set.roundId
  missing_eq : r.gauges.lookup Series.topicsMissing = sets.getLast?.map fun set =>
    Float.ofNat (set.details.missing.length + set.details.failed.length)

namespace ToldOf

variable {sets : List SyncedSet}

theorem empty : ToldOf [] empty where
  total_eq _ _ := rfl
  counted _ := nofun
  roundId_eq := rfl
  missing_eq := rfl

theorem count (h : ToldOf sets r) {s : Series} (hs : s.countsRounds = false) {n : Nat}
    (hn : n ≠ 0) : ToldOf sets (r.count s n) where
  total_eq k hk := by
    rw [total_count, if_neg (Series.ne_of_countsRounds hk hs), Nat.add_zero, h.total_eq k hk]
  counted := h.counted.count s hn
  roundId_eq := h.roundId_eq
  missing_eq := h.missing_eq

theorem tick (h : ToldOf sets r) {s : Series} (hs : s.countsRounds = false) :
    ToldOf sets (r.tick s) := h.count hs one_ne_zero

theorem round (h : ToldOf sets r) (set : SyncedSet) : ToldOf (sets ++ [set]) (r.round set) where
  total_eq k hk := by
    rw [total_round_eq, h.total_eq k hk, List.map_append, List.sum_append, List.map_singleton,
      List.sum_singleton]
  counted := h.counted.round set
  roundId_eq := by
    rw [gauges_round (by simp [Series.lastRoundId, Series.topicStatus]),
      if_neg (by simp [Series.lastRoundId, Series.topicsMissing]), if_pos rfl,
      List.getLast?_concat]
    rfl
  missing_eq := by
    rw [gauges_round (by simp [Series.topicsMissing, Series.topicStatus]), if_pos rfl,
      List.getLast?_concat]
    rfl

end ToldOf

end Recorder

/-! ## What is added up -/

namespace RoundTally

/-- What a tally is to which sets were added, but for its times. -/
structure AddsUp (sets : List SyncedSet) (t : RoundTally) : Prop where
  total_eq : t.total = sets.length
  complete_eq : t.complete = sets.countP (·.details.trigger = .complete)
  timeout_eq : t.timeout = sets.countP (·.details.trigger = .timeout)
  withMissing_eq : t.withMissing = sets.countP (·.absent ≠ [])
  failures_eq : t.failures = (sets.map (·.details.failed.length)).sum
  missing_eq : ∀ topic,
    (get? t.missingCounts topic).getD 0 = (sets.map (·.absent.count topic)).sum
  counted : ∀ topic, get? t.missingCounts topic ≠ some 0

namespace AddsUp

variable {sets : List SyncedSet} {t : RoundTally}

theorem empty : AddsUp [] {} where
  total_eq := rfl
  complete_eq := rfl
  timeout_eq := rfl
  withMissing_eq := rfl
  failures_eq := rfl
  missing_eq _ := rfl
  counted _ := nofun

theorem add (h : AddsUp sets t) (set : SyncedSet) : AddsUp (sets ++ [set]) (t.add set) where
  total_eq := by
    rw [List.length_append, ← h.total_eq]
    rfl
  complete_eq := by
    rw [List.countP_append, ← h.complete_eq, List.countP_singleton]
    unfold RoundTally.add
    dsimp only
    cases set.details.trigger <;> rfl
  timeout_eq := by
    rw [List.countP_append, ← h.timeout_eq, List.countP_singleton]
    unfold RoundTally.add
    dsimp only
    cases set.details.trigger <;> rfl
  withMissing_eq := by
    rw [List.countP_append, ← h.withMissing_eq, List.countP_singleton]
    unfold RoundTally.add
    dsimp only
    cases set.absent <;> rfl
  failures_eq := by
    rw [List.map_append, List.sum_append, ← h.failures_eq, List.map_singleton, List.sum_singleton]
    rfl
  missing_eq topic := by
    rw [List.map_append, List.sum_append, ← h.missing_eq topic, List.map_singleton,
      List.sum_singleton]
    exact Keyed.getD_foldl_bump set.absent t.missingCounts topic
  counted := by
    refine List.foldlRecOn (motive := fun c : Keyed Nat => ∀ topic, get? c topic ≠ some 0)
      set.absent _ h.counted fun c hc topic _ => ?_
    exact Keyed.get?_bump_ne_zero hc topic

end AddsUp

theorem addsUp_foldl (sets : List SyncedSet) : AddsUp sets (sets.foldl add {}) := by
  induction sets using List.reverseRecOn with
  | nil => exact .empty
  | append_singleton sets set ih =>
    rw [List.foldl_append]
    exact ih.add set

end RoundTally

/-! ## The counts of both -/

theorem sum_countOn_rounds (sets : List SyncedSet) (t : Trigger) :
    (sets.map (·.countOn (Series.rounds t))).sum = sets.countP (·.details.trigger = t) := by
  induction sets with
  | nil => rfl
  | cons set sets ih =>
    rw [List.map_cons, List.sum_cons, ih, SyncedSet.countOn_rounds, List.countP_cons]
    simp only [decide_eq_true_eq]
    omega

/-- Every round has one of the two triggers. -/
theorem countP_triggers (sets : List SyncedSet) :
    sets.countP (·.details.trigger = .complete) + sets.countP (·.details.trigger = .timeout)
      = sets.length := by
  rw [List.length_eq_countP_add_countP (p := fun set => set.details.trigger = .complete)]
  congr 1
  apply List.countP_congr
  intro set _
  cases set.details.trigger <;> decide

/-- The failures of each topic in all sets are the failures of each set in all topics. -/
theorem sum_failures {topics : List Topic} (hnodup : topics.Nodup) {sets : List SyncedSet}
    (hsub : ∀ set ∈ sets, ∀ t ∈ set.details.failed, t ∈ topics) :
    (topics.map fun t => (sets.map (·.details.failed.count t)).sum).sum
      = (sets.map (·.details.failed.length)).sum := by
  induction sets with
  | nil => simp
  | cons set sets ih =>
    have hrest := ih fun s hs => hsub s (List.mem_cons_of_mem set hs)
    simp only [List.map_cons, List.sum_cons, List.sum_map_add]
    rw [hrest, sum_count_eq_length hnodup (hsub set List.mem_cons_self)]

/-- A tally and a recorder say the same of the rounds that built some sets over some topics. -/
structure RoundTally.Agrees (topics : List Topic) (sets : List SyncedSet) (t : RoundTally)
    (r : Recorder) : Prop where
  total_eq : t.total = t.complete + t.timeout
  total_last : t.total = match sets.getLast? with
    | some set => set.roundId + 1
    | none => 0
  last_eq : r.gauges.lookup Series.lastRoundId = sets.getLast?.map (Float.ofNat ·.roundId)
  complete_eq : t.complete = r.total (Series.rounds .complete)
  timeout_eq : t.timeout = r.total (Series.rounds .timeout)
  missing_eq : ∀ topic,
    get? t.missingCounts topic = r.counters.lookup (Series.topicMissing topic)
  /-- What was never missing has no count on either side. -/
  missing_ne_zero : ∀ topic, get? t.missingCounts topic ≠ some 0
  failures_eq : t.failures
    = ((ascending topics).map fun topic => r.total (Series.transformFailures topic)).sum
  /-- There are failures of the configured topics alone. -/
  failures_elsewhere : ∀ topic ∉ topics, r.counters.lookup (Series.transformFailures topic) = none
  absent_eq : r.gauges.lookup Series.topicsMissing
    = sets.getLast?.map (Float.ofNat ·.absent.length)
  withMissing_eq : t.withMissing = sets.countP (·.absent ≠ [])

theorem RoundTally.AddsUp.agrees {topics : List Topic} {sets : List SyncedSet} {t : RoundTally}
    {r : Recorder} (ht : t.AddsUp sets) (hr : r.ToldOf sets)
    (hsets : ∀ set ∈ sets, set.Apportioned topics)
    (hids : sets.map SyncedSet.roundId = List.range sets.length) : t.Agrees topics sets r where
  total_eq := by rw [ht.total_eq, ht.complete_eq, ht.timeout_eq, countP_triggers]
  total_last := by
    rw [ht.total_eq]
    cases hlast : sets.getLast? with
    | none => rw [List.getLast?_eq_none_iff.1 hlast, List.length_nil]
    | some set =>
      have hid := congrArg List.getLast? hids
      rw [List.getLast?_map, hlast, List.getLast?_range] at hid
      have hne : sets.length ≠ 0 := by
        intro hzero
        rw [List.length_eq_zero_iff.1 hzero] at hlast
        exact absurd hlast nofun
      rw [if_neg hne] at hid
      have hlast := Option.some.inj hid
      dsimp only
      omega
  last_eq := hr.roundId_eq
  complete_eq := by rw [ht.complete_eq, hr.total_eq _ rfl, sum_countOn_rounds]
  timeout_eq := by rw [ht.timeout_eq, hr.total_eq _ rfl, sum_countOn_rounds]
  missing_eq topic := by
    apply eq_of_getD_eq (ht.counted topic) (hr.counted _)
    -- The tally goes by the clouds of a set and the recorder by its diagnostics.
    have hcounts : sets.map (·.absent.count topic)
        = sets.map (·.countOn (Series.topicMissing topic)) := by
      apply List.map_congr_left
      intro set hset
      rw [SyncedSet.countOn_topicMissing, (hsets set hset).diagnostics_missing]
    rw [ht.missing_eq, hcounts, ← hr.total_eq _ rfl]
    rfl
  missing_ne_zero := ht.counted
  failures_eq := by
    have hnodup : (ascending topics).Nodup :=
      (ascending_pairwise topics).imp fun hlt => ne_of_lt hlt
    rw [ht.failures_eq, ← sum_failures hnodup fun set hset topic htopic =>
      mem_ascending.2 ((hsets set hset).mem_topics_of_failed htopic)]
    congr 1
    apply List.map_congr_left
    intro topic _
    rw [hr.total_eq _ rfl]
    simp only [SyncedSet.countOn_transformFailures]
  failures_elsewhere topic htopic := by
    apply eq_of_getD_eq (b := none) (hr.counted _) nofun
    change r.total _ = 0
    rw [hr.total_eq _ rfl, List.sum_eq_zero_iff]
    intro n hn
    obtain ⟨set, hset, rfl⟩ := List.mem_map.1 hn
    rw [SyncedSet.countOn_transformFailures, List.count_eq_zero]
    exact fun hfailed => htopic ((hsets set hset).mem_topics_of_failed hfailed)
  absent_eq := by
    rw [hr.missing_eq]
    apply Option.map_congr
    intro set hlast
    rw [(hsets set (List.mem_of_getLast? hlast)).length_absent]
  withMissing_eq := ht.withMissing_eq

/-! ## What one step tells -/

namespace Engine

variable {e e' f : Engine} {now : Instant} {turn : Turn}

/-- The recorder is told of the set that a turn built, which shares out its topics, and of nothing
else about rounds. -/
structure Logs (e : Engine) (turn : Turn) (e' : Engine) : Prop where
  told : ∀ sets, e.metrics.ToldOf sets → e'.metrics.ToldOf (sets ++ turn.set?.toList)
  apportioned : ∀ set, turn.set? = some set → set.Apportioned e.settings.inputTopics

theorem Logs.congr (h : Logs f turn e') (hsettings : f.settings = e.settings)
    (htold : ∀ sets, e.metrics.ToldOf sets → f.metrics.ToldOf sets) : Logs e turn e' where
  told sets hsets := h.told sets (htold sets hsets)
  apportioned := by
    rw [← hsettings]
    exact h.apportioned

theorem Logs.quiet (hturn : turn.set? = none)
    (htold : ∀ sets, e.metrics.ToldOf sets → e'.metrics.ToldOf sets) : Logs e turn e' where
  told sets hsets := by
    rw [hturn, Option.toList_none, List.append_nil]
    exact htold sets hsets
  apportioned set hset := by
    rw [hturn] at hset
    exact absurd hset nofun

theorem told_noteTruncations (n : Nat) {sets : List SyncedSet} (h : e.metrics.ToldOf sets) :
    (e.noteTruncations n).metrics.ToldOf sets := by
  unfold noteTruncations
  split
  · exact h
  · next hn => exact h.count rfl hn

theorem told_publish (s : SyncedSet) {sets : List SyncedSet} (h : e.metrics.ToldOf sets) :
    (e.publish s).metrics.ToldOf sets := by
  unfold publish
  split
  · exact h.tick rfl
  · exact h

theorem closeRound_logs (hc : e.collector.Sound)
    (htopics : e.collector.topics = e.settings.inputTopics) (now : Instant) (trigger : Trigger) :
    Logs e (e.closeRound now trigger).turn (e.closeRound now trigger).engine := by
  have hkeys := hc.keys_close trigger
  rw [htopics] at hkeys
  unfold closeRound
  dsimp only
  split
  · exact .quiet rfl fun _ => id
  · next aligned halign =>
    constructor
    · intro sets hsets
      exact told_publish _ ((told_noteTruncations aligned.truncations hsets).round _)
    · intro set hset
      cases Option.some.inj hset
      obtain ⟨-, hrelated⟩ := TopicSlots.alignWith_related halign
      have hascends := hrelated.ascends (Keyed.ascends_of_keys hkeys)
      refine ⟨faithful_setOf hkeys halign now trigger, ?_⟩
      rw [absent_setOf]
      exact aligned.shared hascends

theorem cloud_logs (hc : e.collector.Sound)
    (htopics : e.collector.topics = e.settings.inputTopics) (now : Instant) (t : Topic)
    (cloud : Cloud) : Logs e (e.cloud now t cloud).2.turn (e.cloud now t cloud).2.engine := by
  unfold Engine.cloud
  split
  · exact .quiet rfl fun _ hsets => hsets.tick rfl
  · next packed _ =>
    change Logs e (e.takeIn now t packed).turn (e.takeIn now t packed).engine
    have hreceived : ∀ sets, e.metrics.ToldOf sets →
        (e.metrics.tick (Series.cloudsReceived t)).ToldOf sets := fun _ hsets => hsets.tick rfl
    unfold takeIn
    dsimp only
    split
    · exact .quiet rfl hreceived
    · next mid harrive =>
      have hmid := (Collector.arrive_frame harrive).1.trans htopics
      exact (closeRound_logs (hc.arrive harrive) hmid now .complete).congr rfl hreceived
    · exact .quiet rfl hreceived
    · exact .quiet rfl hreceived

theorem fire_logs (hc : e.collector.Sound)
    (htopics : e.collector.topics = e.settings.inputTopics) (now : Instant) :
    Logs e (e.fire now).2.turn (e.fire now).2.engine := by
  unfold fire
  split
  · exact (closeRound_logs (e := { e with deadline := none }) hc htopics now .timeout).congr rfl
      fun _ => id
  · exact .quiet rfl fun _ => id

theorem told_aside (x : Aside) {sets : List SyncedSet} (h : e.metrics.ToldOf sets) :
    (e.aside x).metrics.ToldOf sets := by
  cases x with
  | velocity v => exact h.tick rfl
  | receive => exact h
  | dropReceiver => exact h
  | compensate start stop =>
    change (((e.compensate start stop).map Prod.snd).getD e).metrics.ToldOf sets
    cases hanswer : e.compensate start stop with
    | none => exact h
    | some answer =>
      obtain ⟨_, _, rfl⟩ := Option.map_eq_some_iff.1 hanswer
      exact told_noteTruncations _ h

end Engine

/-! ## Runs -/

namespace Interplay

/-- The recorder was told of the sets that were built, and they are numbered from zero. -/
structure Tallied (s : SyncSettings) (w : Interplay) : Prop where
  told : w.engine.metrics.ToldOf (publishedIn w.turns)
  apportioned : ∀ set ∈ publishedIn w.turns, set.Apportioned s.inputTopics
  ids : (publishedIn w.turns).map SyncedSet.roundId = List.range w.engine.rounds

namespace Tallied

variable {s : SyncSettings} {w w' : Interplay} {now : Instant} {turn : Turn}

/-- A step that moves the round. -/
theorem turned (h : Tallied s w) (hsettings : w.engine.settings = s)
    (hturns : w'.turns = (now, turn) :: w.turns) (hlogs : w.engine.Logs turn w'.engine)
    (hsends : w.engine.Sends turn w'.engine) : Tallied s w' := by
  have hpublished : publishedIn w'.turns = publishedIn w.turns ++ turn.set?.toList := by
    rw [hturns, publishedIn_cons]
  constructor
  · rw [hpublished]
    exact hlogs.told _ h.told
  · intro set hset
    rw [hpublished] at hset
    rcases List.mem_append.1 hset with hold | hnew
    · exact h.apportioned set hold
    · rw [← hsettings]
      exact hlogs.apportioned set (Option.mem_toList.1 hnew)
  · rw [hpublished]
    cases hsends with
    | quiet built rounds _ _ => rw [built, rounds, Option.toList_none, List.append_nil, h.ids]
    | built built id rounds _ _ =>
      rw [built, rounds, Option.toList_some, List.map_append, h.ids, List.map_singleton, id,
        List.range_succ]

/-- A step beside the rounds. -/
theorem beside (h : Tallied s w) (hturns : w'.turns = w.turns)
    (hrounds : w'.engine.rounds = w.engine.rounds)
    (htold : ∀ sets, w.engine.metrics.ToldOf sets → w'.engine.metrics.ToldOf sets) :
    Tallied s w' where
  told := by
    rw [hturns]
    exact htold _ h.told
  apportioned := by
    rw [hturns]
    exact h.apportioned
  ids := by rw [hturns, hrounds, h.ids]

theorem next (h : Tallied s w) (hinformed : Informed s w) (x : Event) : Tallied s (w.next x) := by
  have htopics : w.engine.collector.topics = w.engine.settings.inputTopics := by
    rw [hinformed.settings_eq, hinformed.topics_eq]
  rcases w.next_cases x with ⟨hturns, hengine | ⟨y, -, hengine⟩ | hengine⟩ |
    ⟨t, cloud, rfl, heq⟩ | ⟨start, _, _, hguard, heq⟩
  · exact h.beside hturns (by rw [hengine]) fun _ => by rw [hengine]; exact id
  · obtain ⟨_, haside, -⟩ := w.engine.aside_eq y
    refine h.beside hturns (by rw [hengine, haside]) fun _ hsets => ?_
    rw [hengine]
    exact Engine.told_aside y hsets
  · exact h.beside hturns (by rw [hengine]) fun _ => by rw [hengine]; exact id
  · rw [heq]
    exact h.turned hinformed.settings_eq rfl (Engine.cloud_logs hinformed.sound htopics w.now t cloud)
      (w.engine.cloud_sends w.now t cloud)
  · obtain ⟨hengine, hturns⟩ := attempt_of_free hguard start
    rw [heq]
    apply h.turned hinformed.settings_eq hturns
    · rw [hengine]
      exact Engine.fire_logs hinformed.sound htopics start
    · rw [hengine]
      exact w.engine.fire_sends start

end Tallied

theorem tallied_after (s : SyncSettings) (m : Transformer ReprojectFault) (halving : Halving Float)
    (xs : List Event) : Tallied s ((ofTransformer s m halving).after xs) := by
  induction xs using List.reverseRecOn with
  | nil =>
    constructor
    · exact Recorder.ToldOf.empty
    · exact fun set hset => absurd hset List.not_mem_nil
    · rfl
  | append_singleton xs x ih =>
    rw [after_concat]
    exact ih.next (informed_after s m halving xs) x

/-- Over every interleaving, with any way of moving clouds and of searching the history: when every
set that a run has built is added to a tally, once and in order, then the tally and the recorder of the
engine agree. There are as many rounds as the number of the last one says, complete ones and timed out
ones together; each topic was missing as often and as many clouds failed on either side; and the topics
that the last set lacks are those that its diagnostics and its lists show. -/
theorem tallies_agree (s : SyncSettings) (m : Transformer ReprojectFault) (halving : Halving Float)
    (xs : List Event) :
    let w := (ofTransformer s m halving).after xs
    let sets := publishedIn w.turns
    sets.length = w.engine.rounds ∧
      (sets.foldl RoundTally.add {}).Agrees s.inputTopics sets w.engine.metrics := by
  intro w sets
  have h : Tallied s w := tallied_after s m halving xs
  have hlength : sets.length = w.engine.rounds := by
    have hids := congrArg List.length h.ids
    rwa [List.length_map, List.length_range] at hids
  refine ⟨hlength, ?_⟩
  apply (RoundTally.addsUp_foldl sets).agrees h.told h.apportioned
  rw [hlength]
  exact h.ids

end Interplay

end LidarSync
