import LidarSync.Proofs.Cloud.Points
import LidarSync.Proofs.Round.Backpressure

/-!
# Rounds do not depend on the motion

The velocity reports decide where the points of a set are and what its corrections say. Everything
else is the same whatever was reported, and when: which rounds there are and at which instants, by what
they were closed, and in each set the stamp, the frame, the topics of each class and the points of
each cloud, in their order and with their intensities (`Cloud.SameShape`, `SyncedSet.SameShape`).
`Consumption.motion_unseen` says it of whole runs.
-/

namespace LidarSync

open Keyed (get? keys Ascends)

/-! ## Clouds -/

/-- Two clouds of the same points in the same order, each moved by a pose of its own. -/
structure Cloud.SameShape (c c' : Cloud) : Prop where
  header_eq : c'.header = c.header
  count_eq : c'.count = c.count
  stride_eq : c'.stride = c.stride
  fields_eq : c'.fields = c.fields
  points_moved : ∃ (ps : List Point) (p p' : Pose Float), c.points = .ok (ps.map (Point.moved p)) ∧
    c'.points = .ok (ps.map (Point.moved p'))

/-- The points of such clouds have the same intensities. -/
theorem Cloud.SameShape.intensities {c c' : Cloud} (h : c.SameShape c') :
    ∃ ps ps', c.points = .ok ps ∧ c'.points = .ok ps' ∧ ps'.length = ps.length ∧
      ps'.map Point.intensity = ps.map Point.intensity := by
  obtain ⟨ps, p, p', hpoints, hpoints'⟩ := h.points_moved
  refine ⟨_, _, hpoints, hpoints', ?_, ?_⟩
  · rw [List.length_map, List.length_map]
  · have hkept : ∀ p : Pose Float, Point.intensity ∘ Point.moved p = Point.intensity := fun _ => rfl
    rw [List.map_map, List.map_map, hkept, hkept]

/-- Packing points that were moved by one pose or by another. -/
theorem Cloud.sameShape_ofPoints (header : Header) (stamp : Float) (frame : String)
    (ps : List Point) (p p' : Pose Float) :
    SameShape { ofPoints stamp frame (ps.map (Point.moved p)) with header }
      { ofPoints stamp frame (ps.map (Point.moved p')) with header } where
  -- By itself `rfl` has the kernel compare the payloads of the two clouds, bit by bit.
  header_eq := by
    change header = header
    rfl
  count_eq := by
    unfold ofPoints
    rw [List.length_map, List.length_map]
  stride_eq := by
    change packedStride = packedStride
    rfl
  fields_eq := by
    change packedFields = packedFields
    rfl
  points_moved := ⟨_, p, p', points_ofPoints_moved header stamp frame ps p,
    points_ofPoints_moved header stamp frame ps p'⟩

/-- A cloud whose points can be read can be moved by any pose, and its shape does not depend on it. -/
theorem Cloud.moved_cases (c : Cloud) (header : Header) (p p' : Pose Float) :
    (∃ fault, ∀ p, c.moved p = .error fault) ∨
    ∃ moved moved', c.moved p = .ok moved ∧ c.moved p' = .ok moved' ∧
      SameShape { moved with header } { moved' with header } := by
  unfold Cloud.moved
  cases c.points with
  | error fault => exact Or.inl ⟨fault, fun _ => rfl⟩
  | ok ps => exact Or.inr ⟨_, _, rfl, rfl, sameShape_ofPoints header c.stamp c.frame ps p p'⟩

/-- Whether a cloud can be aligned does not depend on its correction, and neither does the shape of
the cloud that it becomes. -/
theorem FrameGraph.align_cases (g : FrameGraph Float) (frame : String) (reference : Float)
    (p p' : Pose Float) (c : Cloud) :
    (∃ fault, ∀ p, g.transformer.align frame reference p c = .error fault) ∨
    ∃ moved moved', g.transformer.align frame reference p c = .ok moved ∧
      g.transformer.align frame reference p' c = .ok moved' ∧ moved.SameShape moved' := by
  unfold Transformer.align FrameGraph.transformer
  dsimp only
  cases c.reproject g frame with
  | error fault => exact Or.inl ⟨fault, fun _ => rfl⟩
  | ok there =>
    rcases there.moved_cases ⟨reference, frame⟩ p p' with
      ⟨fault, hfault⟩ | ⟨moved, moved', hmoved, hmoved', hshape⟩
    · refine Or.inl ⟨.cloud there.frame fault, fun p => ?_⟩
      change ((there.moved p).mapError _).bind _ = _
      rw [hfault]
      rfl
    · refine Or.inr ⟨_, _, ?_, ?_, hshape⟩
      · change ((there.moved p).mapError _).bind _ = _
        rw [hmoved]
        rfl
      · change ((there.moved p').mapError _).bind _ = _
        rw [hmoved']
        rfl

/-! ## Aligned rounds -/

/-- The same became of a topic, but for the motion. -/
inductive Aligned.SameShape : Aligned → Aligned → Prop where
  | missing : SameShape .missing .missing
  | failed : SameShape .failed .failed
  | moved {c c' : Cloud} {s s' : CorrectionSummary Float} (cloud : c.SameShape c')
      (source : s'.source = s.source) : SameShape (.moved c s) (.moved c' s')

/-- Under the same stamps, the same slot becomes the same but for the motion. -/
theorem TopicSlots.Becomes.sameShape {g : FrameGraph Float} {frame : String} {h h' : History Float}
    {stamps : List Float} {slot : Option Cloud} {a a' : Aligned}
    (ha : Becomes g.transformer frame h stamps slot a)
    (ha' : Becomes g.transformer frame h' stamps slot a') : a.SameShape a' := by
  cases ha with
  | missing =>
    cases ha' with
    | missing => exact .missing
  | @failed c chained chains fails =>
    cases ha' with
    | failed _ _ => exact .failed
    | @moved _ moved' chained' reference _ _ aligns' =>
      rcases g.align_cases frame reference chained.pose chained'.pose c with
        ⟨fault, hfault⟩ | ⟨moved, _, hmoved, -⟩
      · rw [hfault] at aligns'
        exact absurd aligns' nofun
      · exact absurd fails (Transformer.not_fails_of_align hmoved)
  | @moved c moved chained reference _ last aligns =>
    cases ha' with
    | @failed _ chained' _ fails' =>
      rcases g.align_cases frame reference chained.pose chained'.pose c with
        ⟨fault, hfault⟩ | ⟨_, moved', -, hmoved', -⟩
      · rw [hfault] at aligns
        exact absurd aligns nofun
      · exact absurd fails' (Transformer.not_fails_of_align hmoved')
    | @moved _ moved' chained' reference' _ last' aligns' =>
      rw [last] at last'
      cases last'
      rcases g.align_cases frame reference chained.pose chained'.pose c with
        ⟨fault, hfault⟩ | ⟨_, _, hmoved, hmoved', hshape⟩
      · rw [hfault] at aligns
        exact absurd aligns nofun
      · rw [aligns] at hmoved
        rw [aligns'] at hmoved'
        cases hmoved
        cases hmoved'
        exact .moved hshape rfl

/-- Two aligned rounds that differ in the motion alone. -/
structure AlignedRound.SameShape (r r' : AlignedRound) : Prop where
  reference_eq : r'.reference = r.reference
  topics : Keyed.Related Aligned.SameShape r.topics r'.topics

theorem TopicSlots.alignWith_sameShape {g : FrameGraph Float} {frame : String}
    {h h' : History Float} {s : TopicSlots} {r r' : AlignedRound}
    (hr : s.alignWith g.transformer frame h = some r)
    (hr' : s.alignWith g.transformer frame h' = some r') : r.SameShape r' := by
  obtain ⟨hreference, hrelated⟩ := alignWith_related hr
  obtain ⟨hreference', hrelated'⟩ := alignWith_related hr'
  refine ⟨hreference'.trans hreference.symm, (hrelated.common hrelated').imp ?_⟩
  rintro a a' ⟨slot, ha, ha'⟩
  exact ha.sameShape ha'

namespace AlignedRound.SameShape

variable {r r' : AlignedRound}

theorem missing_eq (h : r.SameShape r') : r'.missing = r.missing := by
  rw [AlignedRound.missing_eq, AlignedRound.missing_eq]
  apply h.topics.namesWhere_eq
  intro a a' ha
  cases ha <;> rfl

theorem failed_eq (h : r.SameShape r') : r'.failed = r.failed := by
  rw [AlignedRound.failed_eq, AlignedRound.failed_eq]
  apply h.topics.namesWhere_eq
  intro a a' ha
  cases ha <;> rfl

theorem notSynchronized_eq (h : r.SameShape r') : r'.notSynchronized = r.notSynchronized := by
  refine h.topics.namesWhere_eq (p := fun a => a.cloud?.isNone) (q := fun a => a.cloud?.isNone) ?_
  intro a a' ha
  cases ha <;> rfl

theorem clouds (h : r.SameShape r') :
    Keyed.Related (Option.Rel Cloud.SameShape) r.clouds r'.clouds := by
  apply h.topics.map
  intro a a' ha
  cases ha with
  | missing => exact .none
  | failed => exact .none
  | moved hcloud _ => exact .some hcloud

theorem corrections (h : r.SameShape r') :
    Keyed.Related (fun s s' => s'.source = s.source) r.corrections r'.corrections := by
  obtain ⟨-, htopics⟩ := h
  unfold AlignedRound.corrections
  generalize r.topics = topics at htopics ⊢
  generalize r'.topics = topics' at htopics ⊢
  induction htopics with
  | nil => exact .nil
  | @cons p p' rest rest' hhead _ ih =>
    obtain ⟨t, a⟩ := p
    obtain ⟨t', a'⟩ := p'
    obtain ⟨hname, ha⟩ := hhead
    cases hname
    cases ha with
    | missing => exact ih
    | failed => exact ih
    | moved _ hsource => exact .cons ⟨rfl, hsource⟩ ih

end AlignedRound.SameShape

/-! ## Sets and queues -/

/-- Two sets that differ in the motion alone. -/
structure SyncedSet.SameShape (s s' : SyncedSet) : Prop where
  roundId_eq : s'.roundId = s.roundId
  reference_eq : s'.reference = s.reference
  frame_eq : s'.frame = s.frame
  clouds : Keyed.Related (Option.Rel Cloud.SameShape) s.clouds s'.clouds
  trigger_eq : s'.details.trigger = s.details.trigger
  missing_eq : s'.details.missing = s.details.missing
  failed_eq : s'.details.failed = s.details.failed
  corrections : Keyed.Related (fun a a' => a'.source = a.source) s.details.corrections
    s'.details.corrections
  processingMs_eq : s'.details.processingMs = s.details.processingMs
  cycleMs_eq : s'.details.cycleMs = s.details.cycleMs
  diagnostics_eq : s'.details.diagnostics = s.details.diagnostics

theorem Engine.setOf_sameShape (e : Engine) (now : Instant) (trigger : Trigger)
    {r r' : AlignedRound} (h : r.SameShape r') :
    (e.setOf now trigger r).SameShape (e.setOf now trigger r') where
  roundId_eq := rfl
  reference_eq := h.reference_eq
  frame_eq := rfl
  clouds := h.clouds
  trigger_eq := rfl
  missing_eq := h.missing_eq
  failed_eq := h.failed_eq
  corrections := h.corrections
  processingMs_eq := rfl
  cycleMs_eq := rfl
  diagnostics_eq := by
    unfold Engine.setOf
    rw [h.notSynchronized_eq]

/-- Two queues that hold related elements. -/
structure Outbox.Related {α : Type} (R : α → α → Prop) (q q' : Outbox α) : Prop where
  capacity_eq : q'.capacity = q.capacity
  closed_eq : q'.closed = q.closed
  waiting : List.Forall₂ R q.waiting q'.waiting

namespace Outbox.Related

variable {α : Type} {R : α → α → Prop} {q q' : Outbox α}

theorem send (h : q.Related R q') {a a' : α} (ha : R a a') :
    (q.send a).2.Related R (q'.send a').2 := by
  have hlength := h.waiting.length_eq
  unfold Outbox.send isFull
  rw [h.capacity_eq, h.closed_eq, ← hlength]
  split
  · exact h
  · split
    · exact h
    · exact
      { capacity_eq := rfl
        closed_eq := rfl
        waiting := List.rel_append h.waiting (.cons ha .nil) }

theorem receive (h : q.Related R q') :
    List.Forall₂ R q.receive.1.toList q'.receive.1.toList ∧ q.receive.2.Related R q'.receive.2 := by
  obtain ⟨capacity, waiting, closed⟩ := q
  obtain ⟨capacity', waiting', closed'⟩ := q'
  obtain ⟨hcapacity, hclosed, hwaiting⟩ := h
  cases hwaiting with
  | nil => exact ⟨.nil, hcapacity, hclosed, .nil⟩
  | cons hhead hrest => exact ⟨.cons hhead .nil, hcapacity, hclosed, hrest⟩

theorem drop (h : q.Related R q') : q.drop.Related R q'.drop :=
  ⟨h.capacity_eq, rfl, .nil⟩

end Outbox.Related

/-! ## Runs -/

namespace Likeness

/-- Engines over one graph of frames whose clouds have numbers for stamps, and that differ in their
motion. -/
def ofMotions (g : FrameGraph Float) : Likeness g.transformer where
  clouds c := c.stamp.isNaN = false
  motions _ _ := True
  rounds := AlignedRound.SameShape
  sets := SyncedSet.SameShape
  queues := Outbox.Related SyncedSet.SameShape
  aligned slots frame c c' hslots _ := by
    have hnumbers : ∀ x ∈ slots.stamps, x.isNaN = false :=
      TopicSlots.Each.stamps (P := fun x => x.isNaN = false) hslots
    have hsome (h : History Float) : (slots.alignWith g.transformer frame h).isSome :=
      TopicSlots.alignWith_isSome hnumbers
    obtain ⟨r, hr⟩ := Option.isSome_iff_exists.1 (hsome c.history)
    obtain ⟨r', hr'⟩ := Option.isSome_iff_exists.1 (hsome c'.history)
    exact Or.inr ⟨r, r', hr, hr', TopicSlots.alignWith_sameShape hr hr'⟩
  noted _ _ _ _ _ _ := trivial
  absent _ _ h := h.notSynchronized_eq
  published e now trigger _ _ h := e.setOf_sameShape now trigger h
  sent _ _ _ _ hs hq := hq.send hs

theorem SameTurn.set?_related {m : Transformer ReprojectFault} {L : Likeness m} {a b : Turn}
    (h : L.SameTurn a b) : List.Forall₂ L.sets a.set?.toList b.set?.toList := by
  cases h with
  | kept => exact .nil
  | armed due => exact .nil
  | closed _ sets =>
    cases sets with
    | none => exact .nil
    | some hset => exact .cons hset .nil

theorem publishedIn_related {m : Transformer ReprojectFault} {L : Likeness m} {turns turns' : Turns}
    (h : List.Forall₂ (fun p q => p.1 = q.1 ∧ L.SameTurn p.2 q.2) turns turns') :
    List.Forall₂ L.sets (publishedIn turns) (publishedIn turns') := by
  induction h with
  | nil => exact .nil
  | @cons p q _ _ hhead _ ih =>
    obtain ⟨now, turn⟩ := p
    obtain ⟨now', turn'⟩ := q
    rw [publishedIn_cons, publishedIn_cons]
    exact List.rel_append ih hhead.2.set?_related

end Likeness

/-- Whether an event is a velocity report or a question about the motion. -/
def Interplay.Event.moves : Event → Bool
  | .aside (.velocity _) => true
  | .aside (.compensate _ _) => true
  | _ => false

namespace Consumption

open Interplay (Event)

variable {g : FrameGraph Float} {k k' : Consumption}

/-- Two consumptions at the same point of interleavings that differ in their motion, with the same
received but for the motion. -/
structure Unseen (g : FrameGraph Float) (k k' : Consumption) : Prop where
  level : (Likeness.ofMotions g).Level k.interplay k'.interplay
  received : List.Forall₂ SyncedSet.SameShape k.received k'.received

namespace Unseen

theorem ofTransformer (s : SyncSettings) (g : FrameGraph Float) (halving halving' : Halving Float) :
    Unseen g (ofTransformer s g.transformer halving) (ofTransformer s g.transformer halving') where
  level := .start s halving halving' s.queueSize trivial ⟨rfl, rfl, .nil⟩
  received := .nil

theorem handed (h : Unseen g k k') (x : Event) :
    List.Forall₂ SyncedSet.SameShape (handed k.interplay x).toList
      (Consumption.handed k'.interplay x).toList := by
  unfold Consumption.handed
  split
  · exact h.level.engine.queues.receive.1
  · exact .nil

theorem next (h : Unseen g k k') {x : Event}
    (hx : ∀ t c, x = .arrive t c → c.stamp.isNaN = false) : Unseen g (k.next x) (k'.next x) where
  level := by
    apply h.level.next
    · intro t c packed heq hpacked
      change packed.stamp.isNaN = false
      rw [Cloud.stamp_packed hpacked]
      exact hx t c heq
    · intro y _
      apply h.level.engine.aside y trivial
      cases y with
      | velocity v => exact h.level.engine.queues
      | compensate start stop => exact h.level.engine.queues
      | receive => exact h.level.engine.queues.receive.2
      | dropReceiver => exact h.level.engine.queues.drop
  received := List.rel_append h.received (h.handed x)

/-- What is said and asked of the motion changes nothing that is compared. -/
theorem moves_cases {x : Event} (hx : (!x.moves) = false) :
    ∃ y : Engine.Aside, x = .aside y ∧ (∀ q, y.output q = q) ∧
      ∀ w, Consumption.handed w x = none := by
  unfold Event.moves at hx
  split at hx
  · exact ⟨_, rfl, fun _ => rfl, fun _ => rfl⟩
  · exact ⟨_, rfl, fun _ => rfl, fun _ => rfl⟩
  · exact absurd hx nofun

theorem left (h : Unseen g k k') {x : Event} (hx : (!x.moves) = false) :
    Unseen g (k.next x) k' := by
  obtain ⟨y, rfl, houtput, hnone⟩ := moves_cases hx
  refine ⟨h.level.aside_left y trivial ?_, ?_⟩
  · rw [houtput]
    exact h.level.engine.queues
  · unfold Consumption.next
    rw [hnone, Option.toList_none, List.append_nil]
    exact h.received

theorem right (h : Unseen g k k') {x : Event} (hx : (!x.moves) = false) :
    Unseen g k (k'.next x) := by
  obtain ⟨y, rfl, houtput, hnone⟩ := moves_cases hx
  refine ⟨h.level.aside_right y trivial ?_, ?_⟩
  · rw [houtput]
    exact h.level.engine.queues
  · unfold Consumption.next
    rw [hnone, Option.toList_none, List.append_nil]
    exact h.received

end Unseen

theorem unseen_after (s : SyncSettings) (g : FrameGraph Float) (halving halving' : Halving Float)
    {xs ys : List Event}
    (hsame : xs.filter (!·.moves) = ys.filter (!·.moves))
    (hnumbers : ∀ t c, .arrive t c ∈ xs → c.stamp.isNaN = false) :
    Unseen g ((ofTransformer s g.transformer halving).after xs)
      ((ofTransformer s g.transformer halving').after ys) :=
  foldl_of_filter (R := Unseen g) (f := next) hsame
    (fun _ _ h _ hx _ => h.next fun t c heq => hnumbers t c (heq ▸ hx))
    (fun _ _ h _ hx => h.left hx) (fun _ _ h _ hx => h.right hx)
    (Unseen.ofTransformer s g halving halving')

/-- Two runs with the same clouds at the same instants and the same consumer, over any velocity reports
and questions about the motion at any points of either, and any ways of searching the reports. When
the stamps of the clouds are numbers, the same becomes of the rounds, no round is lost, and the sets
that are published, received and waiting are the same one by one, all but for the motion. So is what
the engine and its task know. -/
theorem motion_unseen (s : SyncSettings) (g : FrameGraph Float) (halving halving' : Halving Float)
    {xs ys : List Event}
    (hsame : xs.filter (!·.moves) = ys.filter (!·.moves))
    (hnumbers : ∀ t c, .arrive t c ∈ xs → c.stamp.isNaN = false) :
    let k := (ofTransformer s g.transformer halving).after xs
    let k' := (ofTransformer s g.transformer halving').after ys
    List.Forall₂ (fun p q => p.1 = q.1 ∧ (Likeness.ofMotions g).SameTurn p.2 q.2)
      k.interplay.turns k'.interplay.turns ∧
    (∀ now r, (now, .closed r) ∈ k.interplay.turns → r.set?.isSome) ∧
    List.Forall₂ SyncedSet.SameShape (publishedIn k.interplay.turns)
      (publishedIn k'.interplay.turns) ∧
    List.Forall₂ SyncedSet.SameShape k.received k'.received ∧
    List.Forall₂ SyncedSet.SameShape k.interplay.engine.output.waiting
      k'.interplay.engine.output.waiting ∧
    k'.interplay.engine.collector = k.interplay.engine.collector ∧
    k'.interplay.engine.deadline = k.interplay.engine.deadline ∧
    k'.interplay.engine.diagnostics = k.interplay.engine.diagnostics ∧
    k'.interplay.engine.rounds = k.interplay.engine.rounds ∧
    k'.interplay.engine.lastPublish = k.interplay.engine.lastPublish ∧
    k'.interplay.scheduler = k.interplay.scheduler ∧ k'.interplay.now = k.interplay.now ∧
    k'.interplay.guard = k.interplay.guard ∧ k'.interplay.task = k.interplay.task ∧
    k'.interplay.retries = k.interplay.retries := by
  intro k k'
  have h : Unseen g k k' := unseen_after s g halving halving' hsame hnumbers
  have hinterplay : k.interplay = (Interplay.ofTransformer s g.transformer halving).after xs :=
    interplay_after _ xs
  refine ⟨h.level.turns, ?_, ?_, h.received, h.level.engine.queues.waiting,
    h.level.engine.collector_eq, h.level.engine.deadline_eq, h.level.engine.diagnostics_eq,
    h.level.engine.rounds_eq, h.level.engine.lastPublish_eq, h.level.scheduler_eq, h.level.now_eq,
    h.level.guard_eq, h.level.task_eq, h.level.retries_eq⟩
  · intro now r hr
    have hr' := hr
    rw [hinterplay] at hr'
    apply Interplay.built_after s g.transformer halving xs hr'
    exact TopicSlots.Each.stamps (P := fun x => x.isNaN = false) (h.level.held hr)
  · exact Likeness.publishedIn_related h.level.turns

/-- A round that both lidars complete, and its set is received. -/
def parked : List Event := completing 1 ++ [.aside .receive]

/-- The same after a velocity report, and with a question about the motion. -/
def driven : List Event :=
  .aside (.velocity ⟨1, 3, 0, 0.5⟩) :: completing 1 ++ [.aside (.compensate 0 1), .aside .receive]

/-- The set that is received is the same but for the motion. -/
theorem motion_unseen_driven :
    driven.filter (!·.moves) = parked.filter (!·.moves) ∧
    (∀ t c, .arrive t c ∈ driven → c.stamp.isNaN = false) ∧
    List.Forall₂ SyncedSet.SameShape
      ((ofTransformer .pair FrameGraph.empty.transformer .middle).after driven).received
      ((ofTransformer .pair FrameGraph.empty.transformer .middle).after parked).received := by
  have hsame : driven.filter (!·.moves) = parked.filter (!·.moves) := by rfl
  have hnumbers : ∀ t c, .arrive t c ∈ driven → c.stamp.isNaN = false := by
    intro t c hc
    simp only [driven, completing, List.cons_append, List.nil_append, List.mem_cons,
      List.not_mem_nil, reduceCtorEq, Event.arrive.injEq, or_false, false_or] at hc
    rcases hc with ⟨-, rfl⟩ | ⟨-, rfl⟩
    · rfl
    · rfl
  obtain ⟨-, -, -, hreceived, -⟩ := motion_unseen .pair .empty .middle .middle hsame hnumbers
  exact ⟨hsame, hnumbers, hreceived⟩

end Consumption

end LidarSync
