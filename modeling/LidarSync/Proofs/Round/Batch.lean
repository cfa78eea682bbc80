import LidarSync.Proofs.Round.Lost
import LidarSync.Proofs.Round.Sending

/-!
# The order of arrivals within a round

A batch with one cloud for each topic that a round waits for completes the round, whatever the order
in which it arrives. Each arrival fills a slot of its own, and slots are filled in any order with the
same outcome (`TopicSlots.fillAll_perm`). So before the last arrival an engine differs from what it
was in its slots, its deadline and its metrics only, and the last arrival closes the round
(`Engine.deliver_eq`). What the close makes of the round depends on none of the three, except for the
slots, and on its own instant in the time of the cycle only (`Engine.closeRound_outcome`).
-/

namespace LidarSync

open Keyed (keys get?)

/-! ## Slots -/

/-- A cloud as it is taken in. -/
def Cloud.takenIn (c : Cloud) : Cloud := c.packed.toOption.getD c

namespace TopicSlots

variable {t t' : Topic} {s : TopicSlots}

/-- Fills slots with clouds as they are taken in, one after the other. -/
def fillAll (xs : List (Topic × Cloud)) (s : TopicSlots) : TopicSlots :=
  xs.foldl (fun s x => s.fill x.1 x.2.takenIn) s

theorem fill_comm (h : t ≠ t') (c c' : Cloud) (s : TopicSlots) :
    (s.fill t c).fill t' c' = (s.fill t' c').fill t c := by
  unfold fill
  rw [List.map_map, List.map_map]
  refine List.map_congr_left fun p _ => ?_
  by_cases hp : p.1 = t
  · simp [hp, h]
  · simp [hp]

/-- Slots of different topics can be filled in any order. -/
theorem fillAll_perm {xs ys : List (Topic × Cloud)} (hperm : xs.Perm ys)
    (hdistinct : (xs.map Prod.fst).Nodup) (s : TopicSlots) : fillAll xs s = fillAll ys s := by
  unfold fillAll
  refine hperm.foldl_eq' (fun x hx y hy z => ?_) s
  by_cases hsame : x.1 = y.1
  · rw [List.inj_on_of_nodup_map hdistinct hx hy hsame]
  · exact fill_comm hsame _ _ z

/-- A slot that is filled is not waited for any more. -/
theorem waiting_fill (t : Topic) (c : Cloud) (s : TopicSlots) :
    (s.fill t c).waiting = s.waiting.filter (· ≠ t) := by
  unfold waiting fill
  induction s with
  | nil => rfl
  | cons p rest ih =>
    obtain ⟨n, o⟩ := p
    by_cases hn : n = t
    · cases o <;> simp_all
    · cases o <;> simp_all

end TopicSlots

namespace Engine

variable {e : Engine} {now : Instant} {t : Topic} {c p : Cloud}

/-! ## One arrival -/

/-- An engine with other slots, another deadline and other metrics. -/
def underway (e : Engine) (slots : TopicSlots) (deadline : Deadline) (metrics : Recorder) : Engine :=
  { e with collector := { e.collector with current := slots }, deadline, metrics }

/-- An arrival on a topic that the round waits for. -/
theorem cloud_of_empty (hget : get? e.collector.current t = some none) (hc : c.packed = .ok p)
    (now : Instant) : (e.cloud now t c).2 = e.takeIn now t p := by
  have hcontains : e.collector.contains t = true := by
    change (get? e.collector.current t).isSome = true
    rw [hget]
    rfl
  unfold Engine.cloud accept
  rw [hc]
  dsimp only
  rw [if_pos hcontains]

/-- An arrival that leaves other topics waiting. -/
theorem takeIn_of_waits (hget : get? e.collector.current t = some none)
    (hwaits : (e.collector.current.fill t p).waiting ≠ []) (now : Instant) :
    (∀ r, (e.takeIn now t p).turn ≠ .closed r) ∧ ∃ deadline metrics,
      (e.takeIn now t p).engine = e.underway (e.collector.current.fill t p) deadline metrics := by
  have hfull : ¬ (e.collector.current.fill t p).full = true := by
    rwa [TopicSlots.full_iff_waiting]
  have harrive : e.collector.arrive t p = some (.pending (e.collector.firstRearm t),
      { e.collector with current := e.collector.current.fill t p }) := by
    unfold Collector.arrive
    rw [hget]
    dsimp only
    rw [if_neg hfull]
  unfold takeIn
  dsimp only
  rw [harrive]
  cases e.collector.firstRearm t with
  | none => exact ⟨nofun, _, _, rfl⟩
  | some secs => exact ⟨nofun, _, _, rfl⟩

/-- An arrival on the last topic that was waited for. -/
theorem takeIn_of_last (hget : get? e.collector.current t = some none)
    (hlast : (e.collector.current.fill t p).waiting = []) (now : Instant) :
    ∃ metrics, e.takeIn now t p
      = (e.underway (e.collector.current.fill t p) none metrics).closeRound now .complete := by
  have hfull : (e.collector.current.fill t p).full = true :=
    (TopicSlots.full_iff_waiting _).2 hlast
  have harrive : e.collector.arrive t p = some (.complete,
      { e.collector with current := e.collector.current.fill t p }) := by
    unfold Collector.arrive
    rw [hget]
    dsimp only
    rw [if_pos hfull]
  unfold takeIn
  dsimp only
  rw [harrive]
  exact ⟨_, rfl⟩

/-! ## Deliveries -/

/-- What becomes of an engine to which clouds are delivered at instants. -/
def deliver (e : Engine) (xs : List (Instant × Topic × Cloud)) : Course :=
  e.run (xs.map fun x => (x.1, .cloud x.2.1 x.2.2))

/-- The course of an engine that closes a round as complete after some turns. -/
def complete (e : Engine) (now : Instant) (turns : Turns) : Course :=
  ⟨(e.closeRound now .complete).engine, (now, (e.closeRound now .complete).turn) :: turns⟩

/-- Up to the last arrival of a batch, no round is closed, and only the slots, the deadline and the
metrics change. -/
theorem foldl_follow_deliver {xs : List (Instant × Topic × Cloud)} (hne : xs ≠ [])
    (hascends : Keyed.Ascends e.collector.current)
    (hbatch : (xs.map (·.2.1)).Perm e.collector.pending)
    (hwell : ∀ x ∈ xs, ∃ p, x.2.2.packed = .ok p) (turns : Turns) :
    ∃ metrics now kept, (∀ x ∈ kept, ∀ r, x.2 ≠ .closed r) ∧
      (xs.map fun x => (x.1, Input.cloud x.2.1 x.2.2)).foldl follow ⟨e, turns⟩
        = (e.underway (e.collector.current.fillAll (xs.map Prod.snd)) none metrics).complete now
            (kept ++ turns) := by
  induction xs generalizing e turns with
  | nil => exact absurd rfl hne
  | cons x rest ih =>
    obtain ⟨now, t, c⟩ := x
    rw [List.forall_mem_cons] at hwell
    obtain ⟨⟨p, hp⟩, hrest⟩ := hwell
    have htaken : c.takenIn = p := by
      unfold Cloud.takenIn
      rw [hp]
      rfl
    have hmem : t ∈ e.collector.pending := hbatch.subset List.mem_cons_self
    have hget : get? e.collector.current t = some none :=
      TopicSlots.get?_eq_some_none_iff.2 ((TopicSlots.mem_waiting_iff hascends).1 hmem)
    have hnodup : e.collector.pending.Nodup :=
      (Keyed.namesWhere_pairwise hascends _).imp fun h => h.ne
    have hnext : (rest.map (·.2.1)).Perm (e.collector.current.fill t p).waiting := by
      have hfresh : t ∉ rest.map (·.2.1) :=
        (List.nodup_cons.1 (hbatch.nodup_iff.2 hnodup)).1
      have hfiltered := hbatch.filter (· ≠ t)
      rw [List.map_cons, List.filter_cons_of_neg (by simp), List.filter_eq_self.2] at hfiltered
      · rwa [TopicSlots.waiting_fill]
      · intro t' ht'
        exact decide_eq_true fun heq => hfresh (heq ▸ ht')
    have hrun : (((now, t, c) :: rest).map fun x => (x.1, Input.cloud x.2.1 x.2.2)).foldl follow
          ⟨e, turns⟩
        = (rest.map fun x => (x.1, Input.cloud x.2.1 x.2.2)).foldl follow
          ⟨(e.takeIn now t p).engine, (now, (e.takeIn now t p).turn) :: turns⟩ := by
      rw [← cloud_of_empty hget hp now]
      rfl
    rw [hrun]
    by_cases hlast : rest = []
    · subst hlast
      obtain ⟨metrics, hclose⟩ := takeIn_of_last hget (List.nil_perm.1 hnext) now
      refine ⟨metrics, now, [], nofun, ?_⟩
      rw [hclose]
      simp [TopicSlots.fillAll, htaken, complete]
    · have hwaits : (e.collector.current.fill t p).waiting ≠ [] := by
        intro hnil
        rw [hnil, List.perm_nil, List.map_eq_nil_iff] at hnext
        exact hlast hnext
      obtain ⟨hopen, deadline, metrics, hengine⟩ := takeIn_of_waits hget hwaits now
      have hascends' : Keyed.Ascends (e.collector.current.fill t p) :=
        hascends.congr (TopicSlots.keys_fill t p _)
      obtain ⟨metrics', now', kept, hkept, hrest⟩ := ih hlast
        (e := e.underway (e.collector.current.fill t p) deadline metrics) hascends' hnext hrest
        ((now, (e.takeIn now t p).turn) :: turns)
      refine ⟨metrics', now', kept ++ [(now, (e.takeIn now t p).turn)], ?_, ?_⟩
      · simp only [List.forall_mem_append, List.forall_mem_singleton]
        exact ⟨hkept, hopen⟩
      · rw [hengine, hrest]
        simp [TopicSlots.fillAll, htaken, underway]

theorem deliver_eq {xs : List (Instant × Topic × Cloud)} (h : e.collector.Open)
    (hbatch : (xs.map (·.2.1)).Perm e.collector.pending)
    (hwell : ∀ x ∈ xs, ∃ p, x.2.2.packed = .ok p) :
    ∃ metrics now kept, (∀ x ∈ kept, ∀ r, x.2 ≠ .closed r) ∧
      e.deliver xs = (e.underway (e.collector.current.fillAll (xs.map Prod.snd)) none
        metrics).complete now kept := by
  have hne : xs ≠ [] := by
    rintro rfl
    obtain ⟨t, ht, hnone⟩ := h.waits
    have hwaits : t ∈ e.collector.pending :=
      (TopicSlots.mem_waiting_iff h.current_ascends).2 ⟨h.mem_current.2 ht, hnone⟩
    exact absurd (hbatch.symm.subset hwaits) List.not_mem_nil
  obtain ⟨metrics, now, kept, hkept, hrun⟩ :=
    foldl_follow_deliver hne h.current_ascends hbatch hwell []
  rw [List.append_nil] at hrun
  exact ⟨metrics, now, kept, hkept, hrun⟩

/-! ## The close -/

/-- All that a close makes of a round, and of the slots and the deadline. -/
theorem closeRound_outcome (e : Engine) (now : Instant) (trigger : Trigger) :
    let slots := (e.collector.close trigger).1
    let rest := (e.collector.close trigger).2
    let aligned? := slots.alignWith e.transformer e.settings.outputFrame e.compensator.history
    (e.closeRound now trigger).turn
        = .closed ⟨trigger, slots, aligned?.map (e.setOf now trigger)⟩ ∧
    (e.closeRound now trigger).engine.collector = { rest with
      notSynchronized := (aligned?.map (·.notSynchronized)).getD rest.notSynchronized } ∧
    (e.closeRound now trigger).engine.deadline = e.deadline := by
  intro slots rest aligned?
  cases halign : aligned? with
  | none =>
    rw [closeRound_of_lost halign]
    exact ⟨rfl, rfl, rfl⟩
  | some aligned =>
    obtain ⟨metrics, hclose, -⟩ := closeRound_of_aligned halign now
    rw [hclose]
    exact ⟨rfl, rfl, rfl⟩

end Engine

/-! ## Two deliveries -/

/-- A set without the times that were measured for it. -/
def SyncedSet.untimed (s : SyncedSet) : SyncedSet :=
  { s with details := { s.details with processingMs := 0, cycleMs := 0 } }

/-- The last turn of a course, and no other, closes a round. -/
def Course.ClosesLast (k : Course) (r : ClosedRound) : Prop :=
  ∃ now before, k.turns = (now, .closed r) :: before ∧ ∀ x ∈ before, ∀ q, x.2 ≠ .closed q

/-- Two courses of an engine close one round each, with their last turn and as complete. Both hand out
the clouds that the engine held and those of a batch, and those that it kept aside in their stead. If
these jam, both rounds are lost. Otherwise both publish a set, and the sets differ in their times only.
Either way the same slots go on, all of them empty, without a deadline. -/
structure Engine.ClosesAlike (e : Engine) (batch : List (Topic × Cloud)) (k k' : Course)
    (r r' : ClosedRound) : Prop where
  last : k.ClosesLast r
  last' : k'.ClosesLast r'
  trigger_eq : r.trigger = .complete
  trigger_eq' : r'.trigger = .complete
  slots_eq : r.slots = (e.collector.current.fillAll batch).overlay e.collector.overflow
  slots_eq' : r'.slots = r.slots
  lost_iff : r.set? = none ↔ r.slots.Jams e.compensator.history.indexAt
  sets_eq : r'.set?.map SyncedSet.untimed = r.set?.map SyncedSet.untimed
  collector_eq : k'.engine.collector = k.engine.collector
  held_eq : ∀ t, k.engine.collector.held t = (none, none)
  deadline_eq : k.engine.deadline = none
  deadline_eq' : k'.engine.deadline = none

namespace Engine

variable {e : Engine}

/-- The times alone tell of the instant of a close. -/
theorem untimed_setOf (e : Engine) (slots : TopicSlots) (metrics metrics' : Recorder)
    (now now' : Instant) (aligned : AlignedRound) :
    ((e.underway slots none metrics').setOf now' .complete aligned).untimed
      = ((e.underway slots none metrics).setOf now .complete aligned).untimed := by
  simp only [SyncedSet.untimed, setOf, underway]

/-- Completing a round at another instant and with other metrics. -/
theorem complete_alike (e : Engine) (batch : List (Topic × Cloud)) (metrics metrics' : Recorder)
    (now now' : Instant) {kept kept' : Turns} (hkept : ∀ x ∈ kept, ∀ r, x.2 ≠ .closed r)
    (hkept' : ∀ x ∈ kept', ∀ r, x.2 ≠ .closed r) :
    ∃ r r', e.ClosesAlike batch
      ((e.underway (e.collector.current.fillAll batch) none metrics).complete now kept)
      ((e.underway (e.collector.current.fillAll batch) none metrics').complete now' kept') r r' := by
  have hslots : ∃ slots, e.collector.current.fillAll batch = slots := ⟨_, rfl⟩
  obtain ⟨slots, hslots⟩ := hslots
  rw [hslots]
  obtain ⟨hturn, hcollector, hdeadline⟩ :=
    (e.underway slots none metrics).closeRound_outcome now .complete
  obtain ⟨hturn', hcollector', hdeadline'⟩ :=
    (e.underway slots none metrics').closeRound_outcome now' .complete
  have hlost := (closeRound_publishes hturn).lost_iff
  refine ⟨_, _, {
    last := ⟨now, kept, congrArg (fun turn => (now, turn) :: kept) hturn, hkept⟩
    last' := ⟨now', kept', congrArg (fun turn => (now', turn) :: kept') hturn', hkept'⟩
    trigger_eq := rfl
    trigger_eq' := rfl
    slots_eq := congrArg (TopicSlots.overlay · e.collector.overflow) hslots.symm
    slots_eq' := rfl
    lost_iff := hlost
    sets_eq := ?_
    collector_eq := hcollector'.trans hcollector.symm
    held_eq := fun t => ?_
    deadline_eq := hdeadline
    deadline_eq' := hdeadline' }⟩
  · rw [Option.map_map, Option.map_map]
    exact congrArg (Option.map · _) (funext (e.untimed_setOf slots metrics metrics' now now'))
  · have hclosed := Collector.held_close (e.underway slots none metrics).collector .complete t
    change (closeRound _ _ _).engine.collector.held t = _
    rw [hcollector]
    exact hclosed

/-- Two deliveries of one batch, in any order and at any instants. -/
theorem deliver_alike {xs ys : List (Instant × Topic × Cloud)} (h : e.collector.Open)
    (hbatch : (xs.map (·.2.1)).Perm e.collector.pending)
    (hwell : ∀ x ∈ xs, ∃ p, x.2.2.packed = .ok p)
    (hperm : (xs.map Prod.snd).Perm (ys.map Prod.snd)) :
    ∃ r r', e.ClosesAlike (xs.map Prod.snd) (e.deliver xs) (e.deliver ys) r r' := by
  have hbatch' : (ys.map (·.2.1)).Perm e.collector.pending := by
    have htopics := (hperm.map Prod.fst).symm
    rw [List.map_map, List.map_map] at htopics
    exact htopics.trans hbatch
  have hwell' : ∀ y ∈ ys, ∃ p, y.2.2.packed = .ok p := by
    intro y hy
    obtain ⟨x, hx, heq⟩ := List.mem_map.1 (hperm.symm.subset (List.mem_map_of_mem hy))
    rw [← heq]
    exact hwell x hx
  have hdistinct : ((xs.map Prod.snd).map Prod.fst).Nodup := by
    rw [List.map_map]
    exact hbatch.nodup_iff.2 ((Keyed.namesWhere_pairwise h.current_ascends _).imp fun h => h.ne)
  obtain ⟨metrics, now, kept, hkept, hrun⟩ := deliver_eq h hbatch hwell
  obtain ⟨metrics', now', kept', hkept', hrun'⟩ := deliver_eq h hbatch' hwell'
  rw [hrun, hrun', ← TopicSlots.fillAll_perm hperm hdistinct e.collector.current]
  exact complete_alike e _ metrics metrics' now now' hkept hkept'

end Engine

namespace Interplay

/-- Whatever happens to a synchronizer, its round waits for some topic. -/
theorem open_after {s : SyncSettings} (h : s.Valid) (m : Transformer ReprojectFault)
    (halving : Halving Float) (xs : List Event) :
    ((ofTransformer s m halving).after xs).engine.collector.Open := by
  induction xs using List.reverseRecOn with
  | nil => exact Engine.open_ofSettings h .empty
  | append_singleton xs x ih =>
    rw [after_concat]
    rcases ((ofTransformer s m halving).after xs).next_cases x with
      ⟨-, hengine | ⟨y, -, hengine⟩ | hengine⟩ | ⟨t, cloud, -, heq⟩ | ⟨start, -, -, hguard, heq⟩
    · rwa [hengine]
    · rwa [hengine, (Engine.aside_frame _ y).1]
    · rwa [hengine]
    · rw [heq]
      exact ih.move (Engine.cloud_move _ _ t cloud)
    · rw [heq, (attempt_of_free hguard start).1]
      exact ih.move (Engine.fire_move _ start)

/-- From every state that a synchronizer can reach, however it searches its velocity history, a batch
with one cloud for each topic that the round waits for completes the round alike in every order. -/
theorem deliver_perm {s : SyncSettings} (hvalid : s.Valid) (m : Transformer ReprojectFault)
    (halving : Halving Float) (events : List Event) {xs ys : List (Instant × Topic × Cloud)}
    (hbatch : (xs.map (·.2.1)).Perm
      ((ofTransformer s m halving).after events).engine.collector.pending)
    (hwell : ∀ x ∈ xs, ∃ p, x.2.2.packed = .ok p)
    (hperm : (xs.map Prod.snd).Perm (ys.map Prod.snd)) :
    ∃ r r', ((ofTransformer s m halving).after events).engine.ClosesAlike (xs.map Prod.snd)
      (((ofTransformer s m halving).after events).engine.deliver xs)
      (((ofTransformer s m halving).after events).engine.deliver ys) r r' :=
  Engine.deliver_alike (open_after hvalid m halving events) hbatch hwell hperm

/-- Three lidars under the usual timeout. -/
def trio : SyncSettings := { SyncSettings.pair with inputTopics := ["/front", "/left", "/right"] }

theorem trio_valid : trio.Valid := trio.validate_eq_ok_iff.1 (by rfl)

/-- An empty cloud. -/
def bare (stamp : Float) : Cloud := .ofPoints stamp "base_link" []

/-- An engine of three lidars after some events. -/
def trioAfter (events : List Event) : Engine :=
  ((ofTransformer trio FrameGraph.empty.transformer .middle).after events).engine

/-- Clouds of the two lidars that are not in front, the left one first. -/
def leftFirst (stamp : Float) : List (Instant × Topic × Cloud) :=
  [(5, "/left", bare stamp), (6, "/right", bare stamp)]

def rightFirst (stamp : Float) : List (Instant × Topic × Cloud) :=
  [(5, "/right", bare stamp), (8, "/left", bare stamp)]

theorem packed_leftFirst (stamp : Float) : ∀ x ∈ leftFirst stamp, ∃ p, x.2.2.packed = .ok p := by
  simp only [leftFirst, List.forall_mem_cons]
  exact ⟨⟨_, rfl⟩, ⟨_, rfl⟩, nofun⟩

/-- The lidar in front delivers twice. -/
def hurried : List Event :=
  [.acquire, .arrive "/front" (bare 1), .release, .acquire, .arrive "/front" (bare 2), .post, .release]

theorem deliver_perm_hurried : ∃ r r', (trioAfter hurried).ClosesAlike
    [("/left", bare 3), ("/right", bare 3)] ((trioAfter hurried).deliver (leftFirst 3))
    ((trioAfter hurried).deliver (rightFirst 3)) r r' := by
  have hbatch : ((leftFirst 3).map (·.2.1)).Perm (trioAfter hurried).collector.pending := by
    rfl
  exact deliver_perm trio_valid _ .middle hurried hbatch (packed_leftFirst 3) (.swap _ _ _)

/-- Three velocity reports, and a cloud in front whose stamp is no number. -/
def marring : List Event :=
  [.aside (.velocity ⟨1, 0, 0, 0⟩), .aside (.velocity ⟨1.25, 0, 0, 0⟩),
    .aside (.velocity ⟨1.5, 0, 0, 0⟩), .acquire, .arrive "/front" (bare (0 / 0)), .release]

/-- Then the other two lidars complete a round that is lost in either order. -/
theorem deliver_marring_lost :
    (trioAfter marring).collector.pending = ["/left", "/right"] ∧
    ∃ r r', (trioAfter marring).ClosesAlike [("/left", bare 1.5), ("/right", bare 1.5)]
      ((trioAfter marring).deliver (leftFirst 1.5)) ((trioAfter marring).deliver (rightFirst 1.5))
      r r' ∧
      r.set? = none ∧ r'.set? = none := by
  have hpending : (trioAfter marring).collector.pending = ["/left", "/right"] := by rfl
  have hbatch : ((leftFirst 1.5).map (·.2.1)).Perm (trioAfter marring).collector.pending := by
    rw [hpending]
    rfl
  have hswapped : ((leftFirst 1.5).map Prod.snd).Perm ((rightFirst 1.5).map Prod.snd) :=
    .swap _ _ _
  obtain ⟨r, r', halike⟩ := Engine.deliver_alike
    (open_after trio_valid FrameGraph.empty.transformer .middle marring) hbatch (packed_leftFirst 1.5)
    hswapped
  have hlost : r.set? = none := by
    rw [halike.lost_iff, halike.slots_eq]
    have hleft : (1.5 : Float) ∈ [(0 / 0 : Float), 1.5, 1.5] :=
      List.mem_cons_of_mem _ List.mem_cons_self
    exact ⟨⟨0 / 0, List.mem_cons_self, by rfl⟩, 1.5, hleft, by rfl, by decide +kernel⟩
  have hlost' : r'.set?.map SyncedSet.untimed = none := by
    rw [halike.sets_eq, hlost]
    rfl
  exact ⟨hpending, r, r', halike, hlost, Option.map_eq_none_iff.1 hlost'⟩

end Interplay

end LidarSync
