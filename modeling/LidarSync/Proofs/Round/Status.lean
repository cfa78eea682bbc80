import LidarSync.Proofs.Round.Classes
import LidarSync.Proofs.Round.Interplay

/-!
# What is reported of the last round

An engine reports diagnostics and a list of the topics that are not synchronized. Both are renewed
together when a round builds its set and at no other time (`Engine.Tells`), and they say the same of
every topic as the set itself (`SyncedSet.Faithful`). `Interplay.status_of_last` says it of every
interleaving, with any way of moving clouds.
-/

namespace LidarSync

open Keyed (get? keys Ascends)

/-! ## Sets and diagnostics -/

/-- The four accounts that a set gives of its topics agree. -/
structure SyncedSet.Faithful (topics : List Topic) (set : SyncedSet) : Prop where
  keys_eq : keys set.clouds = ascending topics
  diagnostics_eq : set.details.diagnostics = .ofMissing topics set.absent
  covered : ∀ t, t ∈ set.absent ↔ t ∈ set.details.missing ∨ t ∈ set.details.failed
  separate : ∀ t ∈ set.details.missing, t ∉ set.details.failed

theorem SyncedSet.Faithful.mem_absent_iff {topics : List Topic} {set : SyncedSet}
    (h : set.Faithful topics) {t : Topic} : t ∈ set.absent ↔ get? set.clouds t = some none := by
  have hascends : Ascends set.clouds := Keyed.ascends_of_keys h.keys_eq
  refine (Keyed.mem_namesWhere_iff hascends).trans ?_
  constructor
  · rintro ⟨slot, hslot, hnone⟩
    rw [Option.isNone_iff_eq_none] at hnone
    exact hnone ▸ hslot
  · intro hslot
    exact ⟨none, hslot, rfl⟩

namespace Diagnostics

theorem keys_ofMissing (topics absent : List Topic) :
    keys (ofMissing topics absent).topics = ascending topics := by
  unfold ofMissing
  rw [Keyed.keys_ofList, List.map_map]
  exact congrArg ascending (List.map_id topics)

theorem get?_ofMissing {topics : List Topic} {t : Topic} (ht : t ∈ topics) (absent : List Topic) :
    get? (ofMissing topics absent).topics t = some (if t ∈ absent then .missing else .ok) := by
  have hstatus := Keyed.get?_ofList_map topics
    (fun t => if t ∈ absent then TopicStatus.missing else TopicStatus.ok) t
  rw [if_pos ht] at hstatus
  exact hstatus

theorem level_ofMissing (topics absent : List Topic) :
    (ofMissing topics absent).level = .warn ↔ absent ≠ [] := by
  cases absent with
  | nil => exact iff_of_false nofun (not_not_intro rfl)
  | cons t rest => exact iff_of_true rfl nofun

end Diagnostics

/-! ## What one step does to the reports -/

/-- The set that a turn built. -/
def Turn.set? : Turn → Option SyncedSet
  | .closed r => r.set?
  | _ => none

theorem Turn.exists_closed_of_set? {turn : Turn} {set : SyncedSet} (h : turn.set? = some set) :
    ∃ r, turn = .closed r ∧ r.set? = some set := by
  cases turn with
  | kept => exact absurd h nofun
  | armed due => exact absurd h nofun
  | closed r => exact ⟨r, rfl, h⟩

namespace Engine

/-- The diagnostics of an engine, and the topics that it says are not synchronized. -/
def status (e : Engine) : Diagnostics × List Topic := (e.diagnostics, e.collector.notSynchronized)

/-- The reports of an engine after a turn: those of the set that was built, or else the old ones. -/
structure Tells (e : Engine) (turn : Turn) (e' : Engine) : Prop where
  settings_eq : e'.settings = e.settings
  status_eq : e'.status = match turn.set? with
    | some set => (set.details.diagnostics, set.absent)
    | none => e.status
  faithful : ∀ set, turn.set? = some set → set.Faithful e.settings.inputTopics

variable {e e' : Engine} {now : Instant} {turn : Turn}

theorem Tells.congr {f : Engine} (h : Tells f turn e') (hsettings : f.settings = e.settings)
    (hstatus : f.status = e.status) : Tells e turn e' where
  settings_eq := h.settings_eq.trans hsettings
  status_eq := by
    rw [h.status_eq, hstatus]
  faithful := by
    rw [← hsettings]
    exact h.faithful

theorem Tells.quiet (hsettings : e'.settings = e.settings) (hstatus : e'.status = e.status)
    (hturn : turn.set? = none) : Tells e turn e' where
  settings_eq := hsettings
  status_eq := by rw [hturn, hstatus]
  faithful set hset := by
    rw [hturn] at hset
    exact absurd hset nofun

@[simp] theorem settings_noteTruncations (e : Engine) (n : Nat) :
    (e.noteTruncations n).settings = e.settings := by
  unfold noteTruncations
  split <;> rfl

@[simp] theorem diagnostics_noteTruncations (e : Engine) (n : Nat) :
    (e.noteTruncations n).diagnostics = e.diagnostics := by
  unfold noteTruncations
  split <;> rfl

@[simp] theorem settings_publish (e : Engine) (s : SyncedSet) :
    (e.publish s).settings = e.settings := by
  unfold publish
  split <;> rfl

@[simp] theorem diagnostics_publish (e : Engine) (s : SyncedSet) :
    (e.publish s).diagnostics = e.diagnostics := by
  unfold publish
  split <;> rfl

theorem absent_setOf (e : Engine) (now : Instant) (trigger : Trigger) (r : AlignedRound) :
    (e.setOf now trigger r).absent = r.notSynchronized := by
  unfold SyncedSet.absent setOf AlignedRound.clouds AlignedRound.notSynchronized
  rw [List.filter_map, List.map_map]
  rfl

/-- The set of an aligned round is faithful when the slots were those of the topics. -/
theorem faithful_setOf {slots : TopicSlots} {ε : Type} {m : Transformer ε} {frame : String}
    {h : History Float} {r : AlignedRound} (hkeys : keys slots = ascending e.settings.inputTopics)
    (hr : slots.alignWith m frame h = some r) (now : Instant) (trigger : Trigger) :
    (e.setOf now trigger r).Faithful e.settings.inputTopics := by
  obtain ⟨-, hrelated⟩ := TopicSlots.alignWith_related hr
  have hascends := hrelated.ascends (Keyed.ascends_of_keys hkeys)
  constructor
  · change keys r.clouds = _
    rw [AlignedRound.keys_clouds, hrelated.keys_eq, hkeys]
  · rw [absent_setOf]
    rfl
  · intro t
    rw [absent_setOf]
    exact AlignedRound.mem_notSynchronized_iff hascends
  · exact fun t ht => AlignedRound.not_failed_of_missing hascends ht

theorem closeRound_tells (hc : e.collector.Sound)
    (htopics : e.collector.topics = e.settings.inputTopics) (now : Instant) (trigger : Trigger) :
    Tells e (e.closeRound now trigger).turn (e.closeRound now trigger).engine := by
  have hkeys := hc.keys_close trigger
  rw [htopics] at hkeys
  unfold closeRound
  dsimp only
  split
  · apply Tells.quiet
    · rfl
    · cases trigger <;> rfl
    · rfl
  · next aligned halign =>
    constructor
    · simp
    · simp [status, Turn.set?, absent_setOf]
    · intro set hset
      cases Option.some.inj hset
      exact faithful_setOf hkeys halign now trigger

/-- A round whose stamps are numbers is not lost. -/
theorem closeRound_built (trigger : Trigger)
    (h : ∀ x ∈ (e.collector.close trigger).1.stamps, x.isNaN = false) (now : Instant) :
    (e.closeRound now trigger).turn.set?.isSome := by
  have hanswer : ((e.collector.close trigger).1.alignWith e.transformer e.settings.outputFrame
      e.compensator.history).isSome := TopicSlots.alignWith_isSome h
  obtain ⟨r, hr⟩ := Option.isSome_iff_exists.1 hanswer
  unfold closeRound
  dsimp only
  rw [hr]
  rfl

theorem fire_built (hdue : e.deadline.isDue now = true)
    (h : ∀ x ∈ e.collector.current.stamps, x.isNaN = false) :
    (e.fire now).2.turn.set?.isSome := by
  unfold fire
  rw [if_pos hdue]
  exact closeRound_built (e := { e with deadline := none }) .timeout h now

/-- An arrival renews the reports when it completes the round. -/
theorem cloud_tells (hc : e.collector.Sound)
    (htopics : e.collector.topics = e.settings.inputTopics) (now : Instant) (t : Topic)
    (cloud : Cloud) : Tells e (e.cloud now t cloud).2.turn (e.cloud now t cloud).2.engine := by
  unfold Engine.cloud
  split
  · exact .quiet rfl rfl rfl
  · next packed _ =>
    change Tells e (e.takeIn now t packed).turn (e.takeIn now t packed).engine
    unfold takeIn
    dsimp only
    split
    · exact .quiet rfl rfl rfl
    · next mid harrive =>
      have hstatus := Collector.notSynchronized_arrive harrive
      apply Tells.congr (closeRound_tells (hc.arrive harrive) _ now .complete)
      · rfl
      · simp only [status, hstatus]
      · exact (Collector.arrive_frame harrive).1.trans htopics
    · next secs mid harrive =>
      have hstatus := Collector.notSynchronized_arrive harrive
      apply Tells.quiet
      · rfl
      · simp only [status, hstatus]
      · rfl
    · next mid harrive =>
      have hstatus := Collector.notSynchronized_arrive harrive
      apply Tells.quiet
      · rfl
      · simp only [status, hstatus]
      · rfl

/-- An attempt renews the reports when the deadline has come. -/
theorem fire_tells (hc : e.collector.Sound)
    (htopics : e.collector.topics = e.settings.inputTopics) (now : Instant) :
    Tells e (e.fire now).2.turn (e.fire now).2.engine := by
  unfold fire
  split
  · exact .congr (closeRound_tells (e := { e with deadline := none }) hc htopics now .timeout) rfl rfl
  · exact .quiet rfl rfl rfl

theorem aside_tells (e : Engine) (x : Aside) : Tells e .kept (e.aside x) := by
  cases x with
  | velocity v => exact .quiet rfl rfl rfl
  | receive => exact .quiet rfl rfl rfl
  | dropReceiver => exact .quiet rfl rfl rfl
  | compensate start stop =>
    change Tells e .kept (((e.compensate start stop).map Prod.snd).getD e)
    cases h : e.compensate start stop with
    | none => exact .quiet rfl rfl rfl
    | some answer =>
      obtain ⟨_, _, rfl⟩ := Option.map_eq_some_iff.1 h
      apply Tells.quiet
      · exact settings_noteTruncations e _
      · simp [status]
      · rfl

end Engine

/-! ## Interleavings -/

namespace Interplay

/-- A new engine over any way of moving clouds and of searching the velocity history, with its task. -/
def ofTransformer (s : SyncSettings) (m : Transformer ReprojectFault) (halving : Halving Float) :
    Interplay :=
  { engine := .ofTransformer s m halving, scheduler := .idle, now := 0 }

/-- Where an interleaving leads from a state. -/
def after (w : Interplay) (xs : List Event) : Interplay := xs.foldl next w

theorem after_append (w : Interplay) (xs ys : List Event) :
    w.after (xs ++ ys) = (w.after xs).after ys := List.foldl_append

theorem after_concat (w : Interplay) (xs : List Event) (x : Event) :
    w.after (xs ++ [x]) = (w.after xs).next x := w.after_append xs [x]

/-- The set of the latest round that built one. A lost round built none. -/
def lastSet? (turns : Turns) : Option SyncedSet := turns.findSome? (·.2.set?)

/-- What is reported when this was the last set, or when there was none yet. -/
def statusAfter (topics : List Topic) : Option SyncedSet → Diagnostics × List Topic
  | some set => (set.details.diagnostics, set.absent)
  | none => (.ofMissing topics (ascending topics), ascending topics)

theorem lastSet?_cons (now : Instant) (turn : Turn) (turns : Turns) :
    lastSet? ((now, turn) :: turns) = turn.set?.or (lastSet? turns) := by
  unfold lastSet?
  rw [List.findSome?_cons]
  cases turn.set? <;> rfl

/-- The reports are those of the last set. -/
structure Informed (s : SyncSettings) (w : Interplay) : Prop where
  settings_eq : w.engine.settings = s
  sound : w.engine.collector.Sound
  topics_eq : w.engine.collector.topics = s.inputTopics
  status_eq : w.engine.status = statusAfter s.inputTopics (lastSet? w.turns)
  faithful : ∀ set, lastSet? w.turns = some set → set.Faithful s.inputTopics

namespace Informed

variable {s : SyncSettings} {w w' : Interplay} {turn : Turn} {now now' : Instant}

theorem ofTransformer (s : SyncSettings) (m : Transformer ReprojectFault) (halving : Halving Float) :
    Informed s (ofTransformer s m halving) where
  settings_eq := rfl
  sound := Collector.ofSettings_sound s
  topics_eq := rfl
  status_eq := rfl
  faithful _ hset := absurd hset nofun

/-- A step that moves the round and tells of it. -/
theorem step (h : Informed s w) {c' : Collector} {d d' : Deadline}
    (hmove : Move now w.engine.collector d turn c' d') (hc' : w'.engine.collector = c')
    (htells : Engine.Tells w.engine turn w'.engine)
    (hturns : w'.turns = (now', turn) :: w.turns) : Informed s w' := by
  subst hc'
  have hlast : lastSet? w'.turns = turn.set?.or (lastSet? w.turns) := by
    rw [hturns, lastSet?_cons]
  refine ⟨htells.settings_eq.trans h.settings_eq, hmove.sound h.sound,
    hmove.frame.1.trans h.topics_eq, ?_, ?_⟩
  · rw [htells.status_eq, hlast, h.status_eq]
    cases turn.set? <;> rfl
  · intro set hset
    rw [hlast, Option.or_eq_some_iff] at hset
    rcases hset with hset | ⟨-, hset⟩
    · have hfaithful := htells.faithful set hset
      rwa [h.settings_eq] at hfaithful
    · exact h.faithful set hset

/-- A step beside the rounds. -/
theorem beside (h : Informed s w) (hsettings : w'.engine.settings = w.engine.settings)
    (hcollector : w'.engine.collector = w.engine.collector)
    (hstatus : w'.engine.status = w.engine.status) (hturns : w'.turns = w.turns) :
    Informed s w' where
  settings_eq := hsettings.trans h.settings_eq
  sound := hcollector ▸ h.sound
  topics_eq := by rw [hcollector, h.topics_eq]
  status_eq := by rw [hstatus, hturns, h.status_eq]
  faithful := by
    rw [hturns]
    exact h.faithful

theorem next (h : Informed s w) (x : Event) : Informed s (w.next x) := by
  have htopics : w.engine.collector.topics = w.engine.settings.inputTopics := by
    rw [h.settings_eq, h.topics_eq]
  rcases w.next_cases x with ⟨hturns, hengine | ⟨y, -, hengine⟩ | hengine⟩ |
    ⟨t, cloud, rfl, heq⟩ | ⟨start, _, _, hguard, heq⟩
  · apply h.beside
    · rw [hengine]
    · rw [hengine]
    · rw [hengine]
    · exact hturns
  · have htells := w.engine.aside_tells y
    apply h.beside
    · rw [hengine, htells.settings_eq]
    · rw [hengine, (w.engine.aside_frame y).1]
    · rw [hengine, htells.status_eq]
      rfl
    · exact hturns
  · apply h.beside
    · rw [hengine]
    · rw [hengine]
    · rw [hengine]
      rfl
    · exact hturns
  · rw [heq]
    exact h.step (w.engine.cloud_move w.now t cloud) rfl
      (Engine.cloud_tells h.sound htopics w.now t cloud) rfl
  · obtain ⟨hengine, hturns⟩ := attempt_of_free hguard start
    rw [heq]
    apply h.step (w.engine.fire_move start) (by rw [hengine]) _ hturns
    rw [hengine]
    exact Engine.fire_tells h.sound htopics start

theorem after (h : Informed s w) (xs : List Event) : Informed s (w.after xs) := by
  induction xs generalizing w with
  | nil => exact h
  | cons x rest ih => exact ih (h.next x)

end Informed

theorem informed_after (s : SyncSettings) (m : Transformer ReprojectFault) (halving : Halving Float)
    (xs : List Event) : Informed s ((ofTransformer s m halving).after xs) :=
  (Informed.ofTransformer s m halving).after xs

/-- Between two sets, no step changes the reports. -/
theorem status_next {s : SyncSettings} {w : Interplay} (h : Informed s w) (x : Event) :
    (w.next x).engine.status = w.engine.status ∨
      ∃ now r set, (w.next x).turns = (now, .closed r) :: w.turns ∧ r.set? = some set := by
  have hnext := (h.next x).status_eq
  rcases w.next_turns x with hturns | ⟨at', input, hturns⟩
  · left
    rw [hnext, hturns, h.status_eq]
  · cases hset : (w.engine.step at' input).turn.set? with
    | none =>
      left
      rw [hnext, hturns, lastSet?_cons, hset, h.status_eq]
      rfl
    | some set =>
      right
      obtain ⟨r, hturn, hset⟩ := Turn.exists_closed_of_set? hset
      exact ⟨w.now, r, set, by rw [hturns, hturn], hset⟩

/-- Over every interleaving, with any way of moving clouds and of searching the history, the reports
are those of the last set that was built, whether or not the output had room for it: the diagnostics
are its own, and the topics that are not synchronized are those of which it has no cloud, which are its
missing and its failed topics, and none is both. Before the first set, these are all topics. The
diagnostics list exactly the configured topics, each as missing when it is not synchronized, and warn
when there is such a topic. No step changes any of this unless it builds a set. -/
theorem status_of_last (s : SyncSettings) (m : Transformer ReprojectFault) (halving : Halving Float)
    (xs : List Event) :
    let w := (ofTransformer s m halving).after xs
    (∀ set, lastSet? w.turns = some set →
      w.engine.diagnostics = set.details.diagnostics ∧
      w.engine.collector.notSynchronized = set.absent ∧
      (∀ t, t ∈ set.absent ↔ get? set.clouds t = some none) ∧
      (∀ t, t ∈ set.absent ↔ t ∈ set.details.missing ∨ t ∈ set.details.failed) ∧
      ∀ t ∈ set.details.missing, t ∉ set.details.failed) ∧
    (lastSet? w.turns = none → w.engine.collector.notSynchronized = ascending s.inputTopics) ∧
    keys w.engine.diagnostics.topics = ascending s.inputTopics ∧
    (∀ t ∈ s.inputTopics, get? w.engine.diagnostics.topics t
      = some (if t ∈ w.engine.collector.notSynchronized then .missing else .ok)) ∧
    (w.engine.diagnostics.level = .warn ↔ w.engine.collector.notSynchronized ≠ []) ∧
    ∀ x, (w.next x).engine.status = w.engine.status ∨
      ∃ now r set, (w.next x).turns = (now, .closed r) :: w.turns ∧ r.set? = some set := by
  intro w
  have h : Informed s w := informed_after s m halving xs
  have hdiagnostics : w.engine.diagnostics
      = .ofMissing s.inputTopics w.engine.collector.notSynchronized := by
    have hstatus := h.status_eq
    cases hlast : lastSet? w.turns with
    | none =>
      rw [hlast] at hstatus
      obtain ⟨hdiagnostics, habsent⟩ := Prod.mk.inj hstatus
      rw [hdiagnostics, habsent]
    | some set =>
      rw [hlast] at hstatus
      obtain ⟨hdiagnostics, habsent⟩ := Prod.mk.inj hstatus
      rw [hdiagnostics, habsent, (h.faithful set hlast).diagnostics_eq]
  refine ⟨fun set hlast => ?_, fun hlast => ?_, ?_, fun t ht => ?_, ?_, status_next h⟩
  · have hstatus := h.status_eq
    rw [hlast] at hstatus
    obtain ⟨hown, habsent⟩ := Prod.mk.inj hstatus
    have hfaithful := h.faithful set hlast
    exact ⟨hown, habsent, fun t => hfaithful.mem_absent_iff, hfaithful.covered, hfaithful.separate⟩
  · have hstatus := h.status_eq
    rw [hlast] at hstatus
    exact (Prod.mk.inj hstatus).2
  · rw [hdiagnostics, Diagnostics.keys_ofMissing]
  · rw [hdiagnostics, Diagnostics.get?_ofMissing ht]
  · rw [hdiagnostics, Diagnostics.level_ofMissing]

/-- Two clouds of one topic, until the deadline of the round has come. -/
def lapsed : List Event :=
  [.acquire, .arrive "/left" (.ofPoints 0 "left" []), .release,
    .acquire, .arrive "/left" (.ofPoints 1 "left" []), .post, .release, .look,
    .pass 100000000, .wake]

/-- The attempt that follows builds a set, and the reports are those of that set. -/
theorem status_of_last_lapsed :
    ∃ set, lastSet? ((ofTransformer .pair FrameGraph.empty.transformer .middle).after
        (lapsed ++ [.attempt])).turns = some set ∧
      ((ofTransformer .pair FrameGraph.empty.transformer .middle).after
        (lapsed ++ [.attempt])).engine.diagnostics = set.details.diagnostics ∧
      ∀ t ∈ set.details.missing, t ∉ set.details.failed := by
  have hbuilt : (((ofTransformer .pair FrameGraph.empty.transformer .middle).after lapsed).engine.fire
      100000000).2.turn.set?.isSome := by
    apply Engine.fire_built
    · rfl
    · intro x hx
      have hx : x ∈ [(0 : Float)] := hx
      rw [List.mem_singleton.1 hx]
      rfl
  obtain ⟨set, hset⟩ := Option.isSome_iff_exists.1 hbuilt
  have hlast : lastSet? ((ofTransformer .pair FrameGraph.empty.transformer .middle).after
      (lapsed ++ [.attempt])).turns = some set := by
    have hturns : ((ofTransformer .pair FrameGraph.empty.transformer .middle).after
        (lapsed ++ [.attempt])).turns
          = (100000000, (((ofTransformer .pair FrameGraph.empty.transformer .middle).after
              lapsed).engine.fire 100000000).2.turn)
            :: ((ofTransformer .pair FrameGraph.empty.transformer .middle).after lapsed).turns := by
      rfl
    rw [hturns, lastSet?_cons, hset]
    rfl
  obtain ⟨hown, -, -, -, hseparate⟩ :=
    (status_of_last .pair FrameGraph.empty.transformer .middle (lapsed ++ [.attempt])).1 set hlast
  exact ⟨set, hlast, hown, hseparate⟩

end Interplay

end LidarSync
