import LidarSync.Proofs.Keyed
import LidarSync.Proofs.Outcome
import LidarSync.Source.Pool

/-!
# Which sources a pool has

A pool is made of the enabled sources, and of several for one topic only the last is in it
(`SourcePool.ofSources_eq_ok_iff`, `Sources.mem_pooled_iff`). All sources of a new pool are started
together (`SourcePool.idle_startAll`).
-/

namespace LidarSync

theorem Source.check_eq_ok_iff {s : Source} :
    s.check = .ok () ↔ s.frequency.isFinite = true ∧ 0 < s.frequency := by
  unfold check
  split
  · next h => exact iff_of_true rfl h
  · next h => exact iff_of_false nofun h

theorem SourceTask.start?_of_period {s : Source} (clock : SourceClock) (now : Instant)
    (h : s.period?.isSome = true) : ∃ task, start? s clock now = some task ∧ task.source = s := by
  obtain ⟨n, hn⟩ := Option.isSome_iff_exists.1 h
  have hpos : 0 < n := by
    have hkept := (Option.filter_eq_some_iff.1 hn).2
    exact (of_decide_eq_true hkept).1
  unfold start?
  rw [hn]
  dsimp only
  rw [dif_pos hpos]
  exact ⟨_, rfl, rfl⟩

/-! ## Sources of a blueprint -/

namespace Sources

/-- The sources that are not disabled. -/
def enabled (s : Sources) : List Source :=
  s.velocity.toList.map VelocitySource.toSource
    ++ (s.clouds.filter (·.enabled)).map CloudSource.toSource

/-- The enabled source of clouds that is named last for a topic. -/
def playing? (s : Sources) (t : Topic) : Option CloudSource :=
  (s.clouds.filter fun c => c.topic == t && c.enabled).getLast?

/-- The enabled sources of clouds by topic. -/
def byTopic (s : Sources) : Keyed Source :=
  Keyed.ofList ((s.clouds.filter (·.enabled)).map fun c => (c.topic, c.toSource))

/-- The sources of which a pool is made. -/
def pooled (s : Sources) : List Source :=
  s.velocity.toList.map VelocitySource.toSource ++ s.byTopic.map Prod.snd

variable {s : Sources} {t : Topic} {c : CloudSource}

theorem mem_of_playing? (h : s.playing? t = some c) :
    c ∈ s.clouds ∧ c.enabled = true ∧ c.topic = t := by
  have hmem := List.mem_of_getLast? h
  rw [List.mem_filter, Bool.and_eq_true, beq_iff_eq] at hmem
  exact ⟨hmem.1, hmem.2.2, hmem.2.1⟩

theorem playing?_eq_none_iff :
    s.playing? t = none ↔ ∀ c ∈ s.clouds, c.topic = t → c.enabled = false := by
  unfold playing?
  rw [List.getLast?_eq_none_iff, List.filter_eq_nil_iff]
  refine forall₂_congr fun c _ => ?_
  rw [Bool.and_eq_true, beq_iff_eq, not_and, Bool.not_eq_true]

theorem byTopic_ascends (s : Sources) : Keyed.Ascends s.byTopic := Keyed.ascends_ofList _

theorem get?_byTopic (s : Sources) (t : Topic) :
    s.byTopic.get? t = (s.playing? t).map CloudSource.toSource := by
  unfold byTopic playing?
  rw [Keyed.get?_ofList, List.filter_map, List.getLast?_map, Option.map_map, List.filter_filter]
  rfl

theorem topic_of_mem_byTopic {p : Topic × Source} (h : p ∈ s.byTopic) : p.2.topic? = some p.1 := by
  have hget := (Keyed.mem_iff_get? s.byTopic_ascends).1 h
  rw [get?_byTopic] at hget
  obtain ⟨c, hc, heq⟩ := Option.map_eq_some_iff.1 hget
  rw [← heq, ← (mem_of_playing? hc).2.2]
  rfl

/-- A source of clouds is in the pool if it is the last one enabled for its topic. -/
theorem mem_pooled_iff {src : Source} :
    src ∈ s.pooled ∧ src.topic? = some t ↔ ∃ c, s.playing? t = some c ∧ src = c.toSource := by
  unfold pooled
  rw [List.mem_append]
  constructor
  · rintro ⟨hmem | hmem, htopic⟩
    · obtain ⟨v, -, rfl⟩ := List.mem_map.1 hmem
      exact absurd htopic nofun
    · obtain ⟨p, hp, rfl⟩ := List.mem_map.1 hmem
      obtain rfl := Option.some.inj ((topic_of_mem_byTopic hp).symm.trans htopic)
      have hget := (Keyed.mem_iff_get? s.byTopic_ascends).1 hp
      rw [get?_byTopic] at hget
      obtain ⟨c, hc, heq⟩ := Option.map_eq_some_iff.1 hget
      exact ⟨c, hc, heq.symm⟩
  · rintro ⟨c, hc, rfl⟩
    have hget : s.byTopic.get? t = some c.toSource := by
      rw [get?_byTopic, hc]
      rfl
    refine ⟨Or.inr (List.mem_map.2 ⟨(t, c.toSource), Keyed.mem_of_get? hget, rfl⟩), ?_⟩
    exact congrArg some (mem_of_playing? hc).2.2

theorem enabled_of_mem_pooled {src : Source} (h : src ∈ s.pooled) : src ∈ s.enabled := by
  rcases List.mem_append.1 h with hmem | hmem
  · exact List.mem_append_left _ hmem
  · obtain ⟨p, hp, rfl⟩ := List.mem_map.1 hmem
    obtain ⟨c, hc, heq⟩ := (mem_pooled_iff (s := s)).1 ⟨h, topic_of_mem_byTopic hp⟩
    obtain ⟨hmem, henabled, -⟩ := mem_of_playing? hc
    rw [heq]
    exact List.mem_append_right _ (List.mem_map_of_mem (List.mem_filter.2 ⟨hmem, henabled⟩))

/-- The sources for a topic in a pool: the one that is enabled last, if there is one. -/
theorem filter_pooled (s : Sources) (t : Topic) :
    s.pooled.filter (·.topic? == some t) = (s.playing? t).toList.map CloudSource.toSource := by
  have hvelocity : (s.velocity.toList.map VelocitySource.toSource).filter (·.topic? == some t) = [] := by
    rw [List.filter_eq_nil_iff]
    intro src hsrc
    obtain ⟨v, -, rfl⟩ := List.mem_map.1 hsrc
    exact nofun
  have hclouds : s.byTopic.filter ((·.topic? == some t) ∘ Prod.snd) = s.byTopic.filter (·.1 == t) := by
    refine List.filter_congr fun p hp => ?_
    rw [Function.comp_apply, topic_of_mem_byTopic hp]
    rfl
  unfold pooled
  rw [List.filter_append, hvelocity, List.nil_append, List.filter_map, hclouds,
    Keyed.filter_name s.byTopic_ascends.nodup, get?_byTopic]
  cases s.playing? t with
  | none => rfl
  | some c => rfl

/-- No two sources of a pool have the same topic. -/
theorem topics_pooled_nodup (s : Sources) : (s.pooled.map (·.topic?)).Nodup := by
  unfold pooled
  rw [List.map_append, List.map_map, List.map_map]
  have hclouds : s.byTopic.map ((·.topic?) ∘ Prod.snd) = s.byTopic.keys.map some := by
    unfold Keyed.keys
    rw [List.map_map]
    exact List.map_congr_left fun p hp => topic_of_mem_byTopic hp
  rw [hclouds]
  refine List.nodup_append.2 ⟨?_, ?_, ?_⟩
  · cases s.velocity with
    | none => exact List.Pairwise.nil
    | some v => exact List.pairwise_singleton _ _
  · exact List.pairwise_map.2
      (s.byTopic_ascends.nodup.imp fun hne heq => hne (Option.some.inj heq))
  · intro x hx y hy
    obtain ⟨v, -, rfl⟩ := List.mem_map.1 hx
    obtain ⟨k, -, rfl⟩ := List.mem_map.1 hy
    exact nofun

end Sources

/-! ## Pools -/

namespace SourcePool

theorem cloudSources_eq_ok_iff {cs : List CloudSource} {m m' : Keyed Source} :
    cloudSources cs m = .ok m' ↔
      (∀ c ∈ cs.filter (·.enabled), c.toSource.check = .ok ()) ∧
        (cs.filter (·.enabled)).foldl (fun m c => Keyed.insert c.topic c.toSource m) m = m' := by
  induction cs generalizing m with
  | nil =>
    change Except.ok m = .ok m' ↔ _
    rw [Except.ok.injEq]
    exact (and_iff_right nofun).symm
  | cons c cs ih =>
    unfold cloudSources
    by_cases h : c.enabled = true
    · rw [if_pos h, List.filter_cons_of_pos h, bind_eq_ok, List.forall_mem_cons, List.foldl_cons]
      constructor
      · rintro ⟨_, hcheck, hrest⟩
        obtain ⟨hchecks, heq⟩ := ih.1 hrest
        exact ⟨⟨hcheck, hchecks⟩, heq⟩
      · rintro ⟨⟨hcheck, hchecks⟩, heq⟩
        exact ⟨(), hcheck, ih.2 ⟨hchecks, heq⟩⟩
    · rw [if_neg h, List.filter_cons_of_neg h]
      exact ih

/-- Sources make a pool if each that is enabled passes its check. -/
theorem ofSources_eq_ok_iff {s : Sources} {capacity : Nat} {p : SourcePool} :
    ofSources s capacity = .ok p ↔
      (∀ src ∈ s.enabled, src.check = .ok ()) ∧
        p = { sources := s.pooled, channel := .ofCapacity capacity } := by
  have hfold : (s.clouds.filter (·.enabled)).foldl
      (fun m c => Keyed.insert c.topic c.toSource m) [] = s.byTopic := by
    unfold Sources.byTopic Keyed.ofList
    rw [List.foldl_map]
  unfold ofSources Sources.enabled
  rw [bind_eq_ok, List.forall_mem_append, ← forM_eq_ok_iff, List.forall_mem_map]
  constructor
  · rintro ⟨clouds, hclouds, hrest⟩
    obtain ⟨hchecks, rfl⟩ := cloudSources_eq_ok_iff.1 hclouds
    obtain ⟨_, hvelocity, hpool⟩ := bind_eq_ok.1 hrest
    rw [hfold] at hpool
    exact ⟨⟨hvelocity, hchecks⟩, (Except.ok.inj hpool).symm⟩
  · rintro ⟨⟨hvelocity, hclouds⟩, rfl⟩
    refine ⟨s.byTopic, cloudSources_eq_ok_iff.2 ⟨hclouds, hfold⟩, ?_⟩
    exact bind_eq_ok.2 ⟨(), hvelocity, rfl⟩

/-- A topic is among those of a pool if a source for it is enabled. -/
theorem mem_topics_iff {s : Sources} {capacity : Nat} {p : SourcePool}
    (h : ofSources s capacity = .ok p) {t : Topic} :
    t ∈ p.topics ↔ (s.playing? t).isSome = true := by
  obtain ⟨-, rfl⟩ := ofSources_eq_ok_iff.1 h
  unfold topics
  rw [List.mem_filterMap, Option.isSome_iff_exists]
  constructor
  · rintro ⟨src, hmem, htopic⟩
    obtain ⟨c, hc, -⟩ := Sources.mem_pooled_iff.1 ⟨hmem, htopic⟩
    exact ⟨c, hc⟩
  · rintro ⟨c, hc⟩
    obtain ⟨hmem, htopic⟩ := Sources.mem_pooled_iff.2 ⟨c, hc, rfl⟩
    exact ⟨c.toSource, hmem, htopic⟩

/-! ## Starting all sources -/

section Starting

variable (clock : SourceClock) (now : Instant)

theorem idle_foldl_start {l : List Source} {p : SourcePool} (hnodup : (l.map (·.topic?)).Nodup)
    (hstopped : ∀ s ∈ l, s.topic? ∉ p.running) :
    (l.foldl (fun p s => (p.start s clock now).toOption.getD p) p).idle
      = p.idle ++ l.flatMap fun s => (SourceTask.start? s clock now).toList := by
  induction l generalizing p with
  | nil => exact (List.append_nil _).symm
  | cons s l ih =>
    obtain ⟨hnew, hnodup⟩ := List.nodup_cons.1 hnodup
    obtain ⟨hs, hl⟩ := List.forall_mem_cons.1 hstopped
    have hstart : p.start s clock now = .ok { p with
        running := s.topic? :: p.running
        idle := p.idle ++ (SourceTask.start? s clock now).toList } := by
      unfold start isRunning
      rw [if_neg (by simpa using hs)]
    rw [List.foldl_cons, hstart, List.flatMap_cons, ← List.append_assoc]
    refine ih hnodup fun s' hs' hrunning => ?_
    rcases List.mem_cons.1 hrunning with heq | hrunning
    · exact hnew (List.mem_map.2 ⟨s', hs', heq⟩)
    · exact hl s' hs' hrunning

/-- All sources of a new pool are started, each that has a period once. -/
theorem idle_startAll {s : Sources} {capacity : Nat} {p : SourcePool}
    (h : ofSources s capacity = .ok p) :
    (p.startAll clock now).idle
      = p.sources.flatMap fun s => (SourceTask.start? s clock now).toList := by
  obtain ⟨-, rfl⟩ := ofSources_eq_ok_iff.1 h
  exact idle_foldl_start clock now s.topics_pooled_nodup fun _ _ => List.not_mem_nil

/-- Where all sources have periods, those of a new pool are the ones that are started. -/
theorem sources_startAll {s : Sources} {capacity : Nat} {p : SourcePool}
    (h : ofSources s capacity = .ok p)
    (hperiods : ∀ src ∈ s.enabled, src.period?.isSome = true) :
    (p.startAll clock now).idle.map (·.source) = s.pooled := by
  rw [idle_startAll clock now h]
  obtain ⟨-, rfl⟩ := ofSources_eq_ok_iff.1 h
  rw [List.map_flatMap]
  calc s.pooled.flatMap (fun src => (SourceTask.start? src clock now).toList.map (·.source))
      = s.pooled.flatMap fun src => [src] := by
        refine List.flatMap_congr fun src hsrc => ?_
        obtain ⟨task, htask, rfl⟩ := SourceTask.start?_of_period clock now
          (hperiods src (Sources.enabled_of_mem_pooled hsrc))
        rw [htask]
        rfl
    _ = s.pooled := List.flatMap_singleton' _

end Starting

end SourcePool

end LidarSync
