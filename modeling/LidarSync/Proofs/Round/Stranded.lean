import LidarSync.Proofs.Round.Acceptance
import LidarSync.Proofs.Round.Invariant

/-!
# Rounds that nothing will close

With latenesses configured, every cloud that arrives completes its round or leaves it under a
deadline. A timeout does neither for the clouds that were kept aside and now fill slots of the next
round: that round has clouds and no deadline until another cloud is taken in. `Engine.Stranded`
describes these runs, and `Engine.unattended_run` says that no round with a cloud is without a
deadline in any other way.
-/

namespace LidarSync

/-- Two lidars that are never late. -/
def SyncSettings.punctual : SyncSettings := { pair with offsets := [0, 0] }

theorem SyncSettings.punctual_valid : punctual.Valid := punctual.validate_eq_ok_iff.1 (by rfl)

theorem SyncSettings.Valid.offsetOf_ne_nil {s : SyncSettings} (h : s.Valid) (hne : s.offsets ≠ []) :
    s.offsetOf ≠ [] := by
  have hlength := h.offsets_length.resolve_left hne
  have htopics := h.topics_length
  intro hnil
  have hkeys : Keyed.keys s.offsetOf = [] := by rw [hnil, Keyed.keys_nil]
  unfold SyncSettings.offsetOf at hkeys
  rw [Keyed.keys_ofList, List.map_fst_zip (by omega)] at hkeys
  cases htopic : s.inputTopics with
  | nil =>
    rw [htopic] at htopics
    exact absurd htopics (by decide)
  | cons t rest =>
    have hmem : t ∈ ascending s.inputTopics := by
      rw [mem_ascending, htopic]
      exact List.mem_cons_self
    rw [hkeys] at hmem
    exact absurd hmem List.not_mem_nil

namespace Engine

/-- Whether an input is a cloud that is taken in. -/
def Input.accepted (s : SyncSettings) : Input → Bool
  | .cloud t c => s.accepts t c
  | _ => false

/-- The round in progress has a cloud and no deadline. -/
def Unattended (e : Engine) : Prop :=
  (∃ t, (e.collector.current.cloud? t).isSome) ∧ e.deadline = none

/-- An input has the deadline close the round, and clouds of it were kept aside for the next one. -/
def Promotes (e : Engine) (x : Instant × Input) : Prop :=
  (∃ r, (e.step x.1 x.2).turn = .closed r ∧ r.trigger = .timeout) ∧
    ∃ t, (e.collector.overflow.cloud? t).isSome

/-- After a timeout that went on with clouds kept aside, no cloud was taken in. -/
def Stranded (s : SyncSettings) (e : Engine) (xs : List (Instant × Input)) : Prop :=
  ∃ ys x zs, xs = ys ++ x :: zs ∧ (e.run ys).engine.Promotes x ∧
    ∀ z ∈ zs, z.2.accepted s = false

theorem stranded_concat (s : SyncSettings) (e : Engine) (xs : List (Instant × Input))
    (x : Instant × Input) :
    Stranded s e (xs ++ [x]) ↔
      (e.run xs).engine.Promotes x ∨ (Stranded s e xs ∧ x.2.accepted s = false) := by
  constructor
  · rintro ⟨ys, y, zs, heq, hpromotes, hzs⟩
    rcases List.eq_nil_or_concat zs with rfl | ⟨zs, z, rfl⟩
    · obtain ⟨rfl, hlast⟩ := List.append_inj' heq rfl
      cases hlast
      exact Or.inl hpromotes
    · rw [List.concat_eq_append] at heq hzs
      have heq : xs ++ [x] = (ys ++ y :: zs) ++ [z] := by
        rw [heq, List.append_assoc, List.cons_append]
      obtain ⟨rfl, hlast⟩ := List.append_inj' heq rfl
      cases hlast
      refine Or.inr ⟨⟨ys, y, zs, rfl, hpromotes, fun z' hz' => ?_⟩, ?_⟩
      · exact hzs z' (List.mem_append_left _ hz')
      · exact hzs x (List.mem_append_right _ List.mem_cons_self)
  · rintro (hpromotes | ⟨⟨ys, y, zs, rfl, hpromotes, hzs⟩, hx⟩)
    · exact ⟨xs, x, [], rfl, hpromotes, nofun⟩
    · refine ⟨ys, y, zs ++ [x], by rw [List.append_assoc, List.cons_append], hpromotes, ?_⟩
      intro z hz
      rcases List.mem_append.1 hz with hz | hz
      · exact hzs z hz
      · rw [List.mem_singleton.1 hz]
        exact hx

variable {s : SyncSettings} {e : Engine} {now : Instant}

/-- With latenesses configured, a cloud that is taken in completes the round or leaves it under a
deadline. -/
theorem attended_of_accepted (h : InProgress e.collector e.deadline)
    (htopics : e.collector.topics = s.inputTopics) (hoffsets : e.collector.offsets ≠ [])
    {t : Topic} {c : Cloud} (hc : s.accepts t c = true) (now : Instant) :
    (e.cloud now t c).2.engine.deadline.isSome ∨
      ∃ r, (e.cloud now t c).2.turn = .closed r ∧ r.trigger = .complete ∧
        ∀ t', (e.cloud now t c).2.engine.collector.current.cloud? t' = none := by
  obtain ⟨packed, a, mid, harrive, hcloud⟩ := cloud_of_accepts h.toSound htopics hc now
  rw [hcloud]
  rcases takeIn_cases harrive now with ⟨rfl, r, hturn, hcloses, -⟩ |
    ⟨secs, rfl, -, -, hdeadline⟩ | ⟨rfl, -, -, hdeadline⟩
  · refine Or.inr ⟨r, hturn, hcloses.trigger_eq, fun t' => ?_⟩
    obtain ⟨topics, hrest⟩ := hcloses.rest
    change (e.takeIn now t packed).engine.collector.current.cloud? t' = none
    rw [hrest]
    exact congrArg Prod.fst (Collector.held_close mid .complete t')
  · left
    change (e.takeIn now t packed).engine.deadline.isSome
    rw [hdeadline]
    rfl
  · left
    change (e.takeIn now t packed).engine.deadline.isSome
    rw [hdeadline]
    -- Without a new deadline the cloud was kept aside, beside another one.
    obtain ⟨_, _, _, heq⟩ | ⟨_, _, ⟨_, heq⟩ | ⟨_, heq⟩⟩ := Collector.arrive_cases harrive
    · apply h.aside_armed
      apply TopicSlots.exists_of_not_vacant h.overflow_ascends
      intro hvacant
      rw [if_pos hvacant] at heq
      exact absurd heq nofun
    · exact absurd heq nofun
    · unfold Collector.firstRearm at heq
      rw [if_neg (by rwa [List.isEmpty_iff])] at heq
      exact absurd heq nofun

/-- How an input can leave the round without anything to close it. -/
theorem unattended_step (h : InProgress e.collector e.deadline)
    (htopics : e.collector.topics = s.inputTopics) (hoffsets : e.collector.offsets ≠ [])
    (x : Instant × Input) :
    (e.step x.1 x.2).engine.Unattended ↔
      e.Promotes x ∨ (e.Unattended ∧ x.2.accepted s = false) := by
  obtain ⟨now, x⟩ := x
  cases x with
  | aside y =>
    obtain ⟨hcollector, hdeadline⟩ := e.aside_frame y
    have hpromotes : ¬ e.Promotes (now, .aside y) := fun h => nomatch h.1
    unfold Unattended
    change (∃ t, ((e.aside y).collector.current.cloud? t).isSome) ∧ (e.aside y).deadline = none ↔ _
    rw [hcollector, hdeadline, or_iff_right hpromotes]
    exact (and_iff_left rfl).symm
  | attempt =>
    change (e.fire now).2.engine.Unattended ↔ _
    cases hdue : e.deadline.isDue now with
    | false =>
      have hpromotes : ¬ e.Promotes (now, .attempt) := by
        rintro ⟨⟨r, hturn, -⟩, -⟩
        change (e.fire now).2.turn = _ at hturn
        rw [fire_of_not_due hdue] at hturn
        exact absurd hturn nofun
      rw [fire_of_not_due hdue, or_iff_right hpromotes]
      exact (and_iff_left rfl).symm
    | true =>
      obtain ⟨-, r, hturn, hcloses, hdeadline⟩ := fire_of_due hdue
      have harmed : ¬ e.Unattended := by
        rintro ⟨-, hnone⟩
        rw [hnone] at hdue
        exact absurd hdue nofun
      obtain ⟨topics, hrest⟩ := hcloses.rest
      unfold Unattended
      rw [hdeadline, hrest, and_iff_left rfl]
      constructor
      · intro hcurrent
        exact Or.inl ⟨⟨r, hturn, hcloses.trigger_eq⟩, hcurrent⟩
      · rintro (⟨-, haside⟩ | ⟨hunattended, -⟩)
        · exact haside
        · exact absurd hunattended harmed
  | cloud t c =>
    change (e.cloud now t c).2.engine.Unattended ↔ _
    cases hc : s.accepts t c with
    | false =>
      obtain ⟨reason, hcloud⟩ := cloud_of_not_accepts h.toSound htopics hc now
      have hpromotes : ¬ e.Promotes (now, .cloud t c) := by
        rintro ⟨⟨r, hturn, -⟩, -⟩
        change (e.cloud now t c).2.turn = _ at hturn
        rw [hcloud] at hturn
        exact absurd hturn nofun
      rw [hcloud, or_iff_right hpromotes]
      exact (and_iff_left hc).symm
    | true =>
      have hattended := attended_of_accepted h htopics hoffsets hc now
      apply iff_of_false
      · rintro ⟨⟨t', ht'⟩, hnone⟩
        rcases hattended with harmed | ⟨r, -, -, hempty⟩
        · rw [hnone] at harmed
          exact absurd harmed nofun
        · rw [hempty t'] at ht'
          exact absurd ht' nofun
      · rintro (⟨⟨r, hturn, htrigger⟩, -⟩ | ⟨-, haccepted⟩)
        · have hcomplete := trigger_of_cloud hturn
          rw [htrigger] at hcomplete
          exact absurd hcomplete nofun
        · exact absurd (hc.symm.trans haccepted) nofun

theorem offsets_run (e : Engine) (xs : List (Instant × Input)) :
    (e.run xs).engine.collector.offsets = e.collector.offsets := by
  induction xs using List.reverseRecOn with
  | nil => rfl
  | append_singleton xs x ih =>
    rw [run_concat]
    exact (step_move (e.run xs).engine x.1 x.2).frame.2.1.trans ih

theorem unattended_run (hs : s.Valid) (hoffsets : s.offsets ≠ []) (g : FrameGraph Float)
    (xs : List (Instant × Input)) :
    ((ofSettings s g).run xs).engine.Unattended ↔ Stranded s (ofSettings s g) xs := by
  induction xs using List.reverseRecOn with
  | nil =>
    apply iff_of_false
    · rintro ⟨⟨t, ht⟩, -⟩
      have hempty : (Collector.ofSettings s).held t = (none, none) := Collector.held_ofSettings s t
      have hfirst : (Collector.ofSettings s).current.cloud? t = none := congrArg Prod.fst hempty
      change ((Collector.ofSettings s).current.cloud? t).isSome at ht
      rw [hfirst] at ht
      exact absurd ht nofun
    · rintro ⟨ys, x, zs, heq, -⟩
      exact absurd heq.symm (by simp)
  | append_singleton xs x ih =>
    obtain ⟨htopics, hround⟩ := inProgress_run hs g xs
    have hsome : ((ofSettings s g).run xs).engine.collector.offsets ≠ [] := by
      rw [offsets_run]
      exact hs.offsetOf_ne_nil hoffsets
    rw [run_concat, stranded_concat, ← ih]
    exact unattended_step hround htopics hsome x

/-- With latenesses configured, a round in progress that has a cloud has a deadline too, except after
a timeout that went on with clouds kept aside, until the next cloud is taken in. No attempt closes such
a round. The next cloud that is taken in arms a deadline or completes the round. -/
theorem stranded_iff {g : FrameGraph Float} {sync : Synchronizer}
    (h : Synchronizer.start s g = .ok sync) (hoffsets : s.offsets ≠ [])
    (xs : List (Instant × Input)) :
    (((∃ t, ((sync.engine.run xs).engine.collector.current.cloud? t).isSome) →
        (sync.engine.run xs).engine.deadline.isSome) ↔ ¬ Stranded s sync.engine xs) ∧
    (Stranded s sync.engine xs →
      (∀ now, ((sync.engine.run xs).engine.fire now).2 = ⟨(sync.engine.run xs).engine, .kept⟩) ∧
      ∀ now t c, s.accepts t c = true →
        ((sync.engine.run xs).engine.cloud now t c).2.engine.deadline.isSome ∨
        ∃ r, ((sync.engine.run xs).engine.cloud now t c).2.turn = .closed r ∧
          r.trigger = .complete) := by
  obtain ⟨hvalid, rfl⟩ := Synchronizer.start_eq_ok_iff.1 h
  obtain ⟨htopics, hround⟩ := inProgress_run hvalid g xs
  have hsome : ((ofSettings s g).run xs).engine.collector.offsets ≠ [] := by
    rw [offsets_run]
    exact hvalid.offsetOf_ne_nil hoffsets
  have hiff := unattended_run hvalid hoffsets g xs
  constructor
  · rw [← hiff]
    unfold Unattended
    rw [not_and, Option.isSome_iff_ne_none]
  · intro hstranded
    obtain ⟨-, hnone⟩ := hiff.2 hstranded
    constructor
    · intro now
      rw [fire_of_not_due (by rw [hnone]; rfl)]
    · intro now t c hc
      rcases attended_of_accepted hround htopics hsome hc now with harmed | ⟨r, hturn, hcomplete, -⟩
      · exact Or.inl harmed
      · exact Or.inr ⟨r, hturn, hcomplete⟩

/-- Two clouds of one topic. -/
def doubled : List (Instant × Input) :=
  [(0, .cloud "/left" (.ofPoints 0 "left" [])), (5, .cloud "/left" (.ofPoints 1 "left" []))]

/-- The timeout closes the round with the first cloud and goes on with the second one. -/
theorem doubled_promotes :
    Stranded .punctual (ofSettings .punctual .empty) (doubled ++ [(100000005, .attempt)]) := by
  have hdue : ((ofSettings .punctual .empty).run doubled).engine.deadline.isDue 100000005
      = true := by rfl
  obtain ⟨-, r, hturn, hcloses, -⟩ := fire_of_due hdue
  exact ⟨doubled, (100000005, .attempt), [], rfl,
    ⟨⟨r, hturn, hcloses.trigger_eq⟩, "/left", by rfl⟩, nofun⟩

/-- After the timeout the round in progress has a cloud and no deadline, although latenesses are
configured. -/
theorem stranded_promoted :
    Synchronizer.start .punctual .empty = .ok ⟨.ofSettings .punctual .empty, .idle, 0⟩ ∧
    SyncSettings.punctual.offsets ≠ [] ∧
    ¬ ((∃ t, (((ofSettings .punctual .empty).run
          (doubled ++ [(100000005, .attempt)])).engine.collector.current.cloud? t).isSome) →
        ((ofSettings .punctual .empty).run
          (doubled ++ [(100000005, .attempt)])).engine.deadline.isSome) := by
  have hoffsets : SyncSettings.punctual.offsets ≠ [] := nofun
  obtain ⟨hcloud, hnone⟩ :=
    (unattended_run SyncSettings.punctual_valid hoffsets .empty _).2 doubled_promotes
  refine ⟨Synchronizer.start_eq_ok_iff.2 ⟨SyncSettings.punctual_valid, rfl⟩, hoffsets, ?_⟩
  intro harmed
  have hsome := harmed hcloud
  rw [hnone] at hsome
  exact absurd hsome nofun

/-- No later attempt closes that round. -/
theorem stranded_iff_promoted :
    (Synchronizer.start .punctual .empty = .ok ⟨.ofSettings .punctual .empty, .idle, 0⟩ ∧
      SyncSettings.punctual.offsets ≠ []) ∧
    ∀ now, (((ofSettings .punctual .empty).run
        (doubled ++ [(100000005, .attempt)])).engine.fire now).2
      = ⟨((ofSettings .punctual .empty).run (doubled ++ [(100000005, .attempt)])).engine,
          .kept⟩ := by
  have hstart : Synchronizer.start .punctual .empty = .ok ⟨.ofSettings .punctual .empty, .idle, 0⟩ :=
    Synchronizer.start_eq_ok_iff.2 ⟨SyncSettings.punctual_valid, rfl⟩
  have hoffsets : SyncSettings.punctual.offsets ≠ [] := nofun
  exact ⟨⟨hstart, hoffsets⟩, ((stranded_iff hstart hoffsets _).2 doubled_promotes).1⟩

end Engine

end LidarSync
