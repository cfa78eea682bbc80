import LidarSync.Proofs.Round.Sending

/-!
# Engines that agree on their rounds

Two runs are compared that differ in something which the rounds do not depend on. A `Likeness` says
what that is: how the velocity histories, the aligned rounds, the sets and the output queues of the
two may differ. Whatever else an engine knows about its rounds is then the same in both, and it stays
the same: clouds and attempts lead from like engines to like ones (`Likeness.Like.cloud`,
`Likeness.Like.fire`), and so do the steps of an interleaving (`Likeness.Level.next`). Steps that only
one of two runs takes are left out of the comparison by `foldl_of_filter`.
-/

namespace LidarSync

/-! ## Runs with the same steps but for some -/

/-- Two runs stay related when the steps that pass a test are the same in both and keep the relation,
and any other step of either run keeps it too. -/
theorem foldl_of_filter {σ α : Type} {R : σ → σ → Prop} {f : σ → α → σ} {p : α → Bool}
    {xs ys : List α} (h : xs.filter p = ys.filter p)
    (both : ∀ a b, R a b → ∀ x ∈ xs, p x = true → R (f a x) (f b x))
    (left : ∀ a b, R a b → ∀ x, p x = false → R (f a x) b)
    (right : ∀ a b, R a b → ∀ x, p x = false → R a (f b x)) {a b : σ} (hab : R a b) :
    R (xs.foldl f a) (ys.foldl f b) := by
  have skip : ∀ zs : List α, (∀ z ∈ zs, p z = false) → ∀ a b, R a b → R a (zs.foldl f b) := by
    intro zs
    induction zs with
    | nil => exact fun _ _ _ hab => hab
    | cons z zs ih =>
      intro hzs a b hab
      apply ih fun y hy => hzs y (List.mem_cons_of_mem z hy)
      exact right a b hab z (hzs z List.mem_cons_self)
  induction xs generalizing ys a b with
  | nil =>
    apply skip ys _ a b hab
    intro z hz
    have hnot := List.filter_eq_nil_iff.1 h.symm z hz
    rwa [Bool.not_eq_true] at hnot
  | cons x xs ih =>
    have hrest := fun a b hab y hy => both a b hab y (List.mem_cons_of_mem x hy)
    cases hx : p x with
    | false =>
      rw [List.filter_cons_of_neg (by rw [hx]; exact Bool.false_ne_true)] at h
      exact ih h hrest (left a b hab x hx)
    | true =>
      rw [List.filter_cons_of_pos hx] at h
      obtain ⟨before, after, rfl, hbefore, -, hafter⟩ := List.filter_eq_cons_iff.1 h.symm
      rw [List.foldl_append]
      apply ih hafter.symm hrest
      apply both _ _ _ x List.mem_cons_self hx
      exact skip before (fun z hz => Bool.not_eq_true _ ▸ hbefore z hz) a b hab

/-! ## The clouds that are held -/

/-- Every cloud in the slots has a property. -/
def TopicSlots.Each (P : Cloud → Prop) (s : TopicSlots) : Prop := ∀ t c, (t, some c) ∈ s → P c

/-- Every cloud that is held has a property. -/
structure Collector.Each (P : Cloud → Prop) (c : Collector) : Prop where
  current : c.current.Each P
  overflow : c.overflow.Each P

namespace TopicSlots

variable {P : Cloud → Prop} {s top : TopicSlots}

theorem each_empty (P : Cloud → Prop) (topics : List Topic) : (empty topics).Each P := by
  intro t c hc
  have hcloud := cloud?_eq_some_iff.2 ((Keyed.mem_iff_get? (ascends_empty topics)).1 hc)
  rw [cloud?_empty] at hcloud
  exact absurd hcloud nofun

theorem Each.fill (h : s.Each P) {c : Cloud} (hc : P c) (t : Topic) : (s.fill t c).Each P := by
  intro t' c' hc'
  obtain ⟨⟨name, old⟩, hold, heq⟩ := List.mem_map.1 hc'
  obtain ⟨rfl, hslot⟩ := Prod.mk.inj heq
  split at hslot
  · rwa [← Option.some.inj hslot]
  · subst hslot
    exact h name c' hold

theorem Each.overlay (h : s.Each P) (htop : top.Each P) : (s.overlay top).Each P := by
  intro t c hc
  obtain ⟨⟨name, old⟩, hold, heq⟩ := List.mem_map.1 hc
  obtain ⟨rfl, hboth⟩ := Prod.mk.inj heq
  rcases Option.or_eq_some_iff.1 hboth with hupper | ⟨-, rfl⟩
  · cases hslot : top.lookup name with
    | none =>
      rw [hslot] at hupper
      exact absurd hupper nofun
    | some slot =>
      rw [hslot] at hupper
      obtain rfl : slot = some c := hupper
      exact htop name c (Keyed.mem_of_get? hslot)
  · exact h name c hold

theorem Each.stamps {P : Float → Prop} (h : s.Each fun c => P c.stamp) : ∀ x ∈ s.stamps, P x := by
  intro x hx
  obtain ⟨⟨t, slot⟩, hmem, hstamp⟩ := List.mem_filterMap.1 hx
  obtain ⟨c, rfl, rfl⟩ := Option.map_eq_some_iff.1 hstamp
  exact h t c hmem

end TopicSlots

namespace Collector.Each

variable {P : Cloud → Prop} {c c' : Collector} {t : Topic} {cloud : Cloud} {a : Arrival}

theorem ofSettings (P : Cloud → Prop) (s : SyncSettings) : (ofSettings s).Each P where
  current := TopicSlots.each_empty P s.inputTopics
  overflow := TopicSlots.each_empty P s.inputTopics

theorem arrive (h : c.Each P) (hcloud : P cloud) (ha : c.arrive t cloud = some (a, c')) :
    c'.Each P := by
  obtain ⟨_, _, rfl, _⟩ | ⟨_, rfl, _⟩ := arrive_cases ha
  · exact ⟨h.current, h.overflow.fill hcloud t⟩
  · exact ⟨h.current.fill hcloud t, h.overflow⟩

theorem close (h : c.Each P) (trigger : Trigger) :
    (c.close trigger).1.Each P ∧ (c.close trigger).2.Each P := by
  have hempty := TopicSlots.each_empty P c.topics
  cases trigger with
  | complete => exact ⟨h.current.overlay h.overflow, hempty, hempty⟩
  | timeout => exact ⟨h.current, h.overflow, hempty⟩

end Collector.Each

/-! ## Likenesses -/

/-- What two engines with one way of moving clouds may differ in. -/
structure Likeness (m : Transformer ReprojectFault) where
  /-- Which clouds are taken in. -/
  clouds : Cloud → Prop
  motions : Compensator → Compensator → Prop
  rounds : AlignedRound → AlignedRound → Prop
  sets : SyncedSet → SyncedSet → Prop
  queues : Outbox SyncedSet → Outbox SyncedSet → Prop
  aligned : ∀ (slots : TopicSlots) (frame : String) (c c' : Compensator), slots.Each clouds →
    motions c c' →
    slots.alignWith m frame c.history = none ∧ slots.alignWith m frame c'.history = none ∨
    ∃ r r', slots.alignWith m frame c.history = some r ∧
      slots.alignWith m frame c'.history = some r' ∧ rounds r r'
  noted : ∀ r r' c c', rounds r r' → motions c c' →
    motions (c.note r.truncations) (c'.note r'.truncations)
  absent : ∀ r r', rounds r r' → r'.notSynchronized = r.notSynchronized
  published : ∀ (e : Engine) now trigger r r', rounds r r' →
    sets (e.setOf now trigger r) (e.setOf now trigger r')
  sent : ∀ s s' q q', sets s s' → queues q q' → queues (q.send s).2 (q'.send s').2

namespace Likeness

variable {m : Transformer ReprojectFault} {L : Likeness m}

/-- Two engines that know the same of their rounds. -/
structure Like (L : Likeness m) (e e' : Engine) : Prop where
  transformer_eq : e.transformer = m
  transformer_eq' : e'.transformer = m
  frame_eq : e'.settings.outputFrame = e.settings.outputFrame
  topics_eq : e'.settings.inputTopics = e.settings.inputTopics
  motions : L.motions e.compensator e'.compensator
  collector_eq : e'.collector = e.collector
  held : e.collector.Each L.clouds
  deadline_eq : e'.deadline = e.deadline
  rounds_eq : e'.rounds = e.rounds
  lastPublish_eq : e'.lastPublish = e.lastPublish
  diagnostics_eq : e'.diagnostics = e.diagnostics
  queues : L.queues e.output e'.output

/-- The same became of both rounds, and the sets that they published are like. -/
inductive SameTurn (L : Likeness m) : Turn → Turn → Prop where
  | kept : SameTurn L .kept .kept
  | armed (due : Instant) : SameTurn L (.armed due) (.armed due)
  | closed {trigger : Trigger} {slots : TopicSlots} {set? set?' : Option SyncedSet}
      (held : slots.Each L.clouds) (sets : Option.Rel L.sets set? set?') :
      SameTurn L (.closed ⟨trigger, slots, set?⟩) (.closed ⟨trigger, slots, set?'⟩)

theorem SameTurn.post_eq {a b : Turn} (h : L.SameTurn a b) : b.post = a.post := by
  cases h <;> rfl

/-- The engines are like, and the same became of their rounds. -/
structure SameTaken (L : Likeness m) (x y : Taken) : Prop where
  turn : L.SameTurn x.turn y.turn
  engine : L.Like x.engine y.engine

theorem SameTaken.isSome_engine? {x y : Taken} (h : L.SameTaken x y) :
    y.engine?.isSome = x.engine?.isSome := by
  obtain ⟨engine, turn⟩ := x
  obtain ⟨engine', turn'⟩ := y
  obtain ⟨hturn, -⟩ := h
  unfold Taken.engine?
  cases hturn with
  | kept => rfl
  | armed due => rfl
  | closed held sets =>
    cases sets with
    | none => rfl
    | some hset => rfl

namespace Like

variable {e e' : Engine}

theorem setOf_eq (h : L.Like e e') (now : Instant) (trigger : Trigger) (r : AlignedRound) :
    e'.setOf now trigger r = e.setOf now trigger r := by
  unfold Engine.setOf
  rw [h.rounds_eq, h.frame_eq, h.lastPublish_eq, h.topics_eq]

theorem closeRound (h : L.Like e e') (now : Instant) (trigger : Trigger) :
    L.SameTaken (e.closeRound now trigger) (e'.closeRound now trigger) := by
  obtain ⟨hslots, hrest⟩ := h.held.close trigger
  have haligned := L.aligned _ e.settings.outputFrame _ _ hslots h.motions
  have hcollector := h.collector_eq
  rcases haligned with ⟨hnone, hnone'⟩ | ⟨r, r', hsome, hsome', hrounds⟩
  · rw [← h.transformer_eq] at hnone
    rw [← h.transformer_eq', ← h.frame_eq, ← hcollector] at hnone'
    rw [Engine.closeRound_of_lost hnone, Engine.closeRound_of_lost hnone', hcollector]
    exact ⟨.closed hslots .none, { h with collector_eq := rfl, held := hrest }⟩
  · rw [← h.transformer_eq] at hsome
    rw [← h.transformer_eq', ← h.frame_eq, ← hcollector] at hsome'
    obtain ⟨metrics, hclose, -⟩ := Engine.closeRound_of_aligned hsome now
    obtain ⟨metrics', hclose', -⟩ := Engine.closeRound_of_aligned hsome' now
    have hset := L.published e now trigger r r' hrounds
    rw [← h.setOf_eq now trigger r'] at hset
    rw [hclose, hclose', hcollector, L.absent r r' hrounds, h.topics_eq, h.rounds_eq]
    refine ⟨.closed hslots (.some hset), ?_⟩
    exact { h with
      motions := L.noted r r' _ _ hrounds h.motions
      collector_eq := rfl
      held := ⟨hrest.current, hrest.overflow⟩
      rounds_eq := rfl
      lastPublish_eq := rfl
      diagnostics_eq := rfl
      queues := L.sent _ _ _ _ hset h.queues }

theorem dropDeadline (h : L.Like e e') :
    L.Like { e with deadline := none } { e' with deadline := none } :=
  { h with deadline_eq := rfl }

/-- Other motions and queues that are like, and other metrics. -/
theorem beside (h : L.Like e e') {c c' : Compensator} {q q' : Outbox SyncedSet}
    (hmotions : L.motions c c') (hqueues : L.queues q q') (r r' : Recorder) :
    L.Like { e with compensator := c, output := q, metrics := r }
      { e' with compensator := c', output := q', metrics := r' } :=
  { h with motions := hmotions, queues := hqueues }

/-- Both engines after something beside their rounds. -/
theorem aside (h : L.Like e e') (x : Engine.Aside)
    (hmotions : L.motions (x.compensator e.compensator) (x.compensator e'.compensator))
    (hqueues : L.queues (x.output e.output) (x.output e'.output)) :
    L.Like (e.aside x) (e'.aside x) := by
  obtain ⟨r, hr, -⟩ := e.aside_eq x
  obtain ⟨r', hr', -⟩ := e'.aside_eq x
  rw [hr, hr']
  exact h.beside hmotions hqueues r r'

/-- The first engine alone after something beside its rounds. -/
theorem aside_left (h : L.Like e e') (x : Engine.Aside)
    (hmotions : L.motions (x.compensator e.compensator) e'.compensator)
    (hqueues : L.queues (x.output e.output) e'.output) : L.Like (e.aside x) e' := by
  obtain ⟨r, hr, -⟩ := e.aside_eq x
  rw [hr]
  exact h.beside hmotions hqueues r e'.metrics

/-- The second engine alone after something beside its rounds. -/
theorem aside_right (h : L.Like e e') (x : Engine.Aside)
    (hmotions : L.motions e.compensator (x.compensator e'.compensator))
    (hqueues : L.queues e.output (x.output e'.output)) : L.Like e (e'.aside x) := by
  obtain ⟨r, hr, -⟩ := e'.aside_eq x
  rw [hr]
  exact h.beside hmotions hqueues e.metrics r

theorem takeIn (h : L.Like e e') {c : Cloud} (hc : L.clouds c) (now : Instant) (t : Topic) :
    L.SameTaken (e.takeIn now t c) (e'.takeIn now t c) := by
  unfold Engine.takeIn
  dsimp only
  rw [h.collector_eq]
  split
  · exact ⟨.kept, { h with collector_eq := rfl }⟩
  · next mid harrive =>
    apply closeRound
    exact { h with collector_eq := rfl, held := h.held.arrive hc harrive, deadline_eq := rfl }
  · next secs mid harrive =>
    refine ⟨.armed _, ?_⟩
    exact { h with collector_eq := rfl, held := h.held.arrive hc harrive, deadline_eq := rfl }
  · next mid harrive =>
    exact ⟨.kept, { h with collector_eq := rfl, held := h.held.arrive hc harrive }⟩

theorem cloud (h : L.Like e e') {c : Cloud} (hc : ∀ packed, c.packed = .ok packed → L.clouds packed)
    (now : Instant) (t : Topic) : L.SameTaken (e.cloud now t c).2 (e'.cloud now t c).2 := by
  have haccept : e'.accept t c = e.accept t c := by
    unfold Engine.accept
    rw [h.collector_eq]
  unfold Engine.cloud
  rw [haccept]
  cases haccepted : e.accept t c with
  | error fault => exact ⟨.kept, { h with }⟩
  | ok packed =>
    apply h.takeIn
    apply hc
    unfold Engine.accept at haccepted
    split at haccepted
    · exact absurd haccepted nofun
    · next hpacked =>
      split at haccepted
      · cases haccepted
        exact hpacked
      · exact absurd haccepted nofun

theorem fire (h : L.Like e e') (now : Instant) :
    (e'.fire now).1 = (e.fire now).1 ∧ L.SameTaken (e.fire now).2 (e'.fire now).2 := by
  unfold Engine.fire
  rw [h.deadline_eq]
  split
  · exact ⟨rfl, h.dropDeadline.closeRound now .timeout⟩
  · exact ⟨rfl, .kept, h⟩

end Like

/-! ## Interleavings -/

/-- Two interleavings at the same point, with like engines, where the same became of all rounds. -/
structure Level (L : Likeness m) (w w' : Interplay) : Prop where
  engine : L.Like w.engine w'.engine
  turns : List.Forall₂ (fun p q => p.1 = q.1 ∧ L.SameTurn p.2 q.2) w.turns w'.turns
  scheduler_eq : w'.scheduler = w.scheduler
  now_eq : w'.now = w.now
  guard_eq : w'.guard = w.guard
  task_eq : w'.task = w.task
  retries_eq : w'.retries = w.retries

namespace Level

variable {w w' : Interplay}

/-- New synchronizers that may search their histories in different ways, and whose output queues may be
of different lengths. -/
theorem start (s : SyncSettings) (halving halving' : Halving Float) (n : Nat)
    (hmotions : L.motions { history := { halving } } { history := { halving := halving' } })
    (hqueues : L.queues (.ofCapacity s.queueSize) (.ofCapacity n)) :
    L.Level (.ofTransformer s m halving) (.ofTransformer { s with queueSize := n } m halving') where
  engine :=
    { transformer_eq := rfl
      transformer_eq' := rfl
      frame_eq := rfl
      topics_eq := rfl
      motions := hmotions
      collector_eq := rfl
      held := Collector.Each.ofSettings L.clouds s
      deadline_eq := rfl
      rounds_eq := rfl
      lastPublish_eq := rfl
      diagnostics_eq := rfl
      queues := hqueues }
  turns := .nil
  scheduler_eq := rfl
  now_eq := rfl
  guard_eq := rfl
  task_eq := rfl
  retries_eq := rfl

theorem arrive (h : L.Level w w') {c : Cloud}
    (hc : ∀ packed, c.packed = .ok packed → L.clouds packed) (t : Topic) :
    L.Level (w.arrive t c) (w'.arrive t c) := by
  have hnow := h.now_eq
  obtain ⟨hturn, hengine⟩ := h.engine.cloud hc w.now t
  unfold Interplay.arrive
  rw [hnow]
  dsimp only
  exact { h with
    engine := hengine
    turns := .cons ⟨rfl, hturn⟩ h.turns
    now_eq := rfl
    guard_eq := by rw [hturn.post_eq] }

theorem attempt (h : L.Level w w') (start : Instant) :
    L.Level (w.attempt start) (w'.attempt start) := by
  obtain ⟨houtcome, hfire⟩ := h.engine.fire start
  have hsome := hfire.isSome_engine?
  obtain ⟨hturn, hengine⟩ := hfire
  unfold Interplay.attempt
  rw [h.guard_eq]
  split
  · dsimp only
    rw [houtcome, hsome]
    exact { h with
      engine := hengine
      turns := .cons ⟨h.now_eq.symm, hturn⟩ h.turns
      guard_eq := rfl
      task_eq := rfl }
  · exact { h with guard_eq := rfl, task_eq := rfl }

theorem shutdown (h : L.Level w w') : L.Level w.shutdown w'.shutdown := by
  unfold Interplay.shutdown
  rw [h.scheduler_eq]
  exact { h with
    engine := h.engine.dropDeadline
    scheduler_eq := rfl
    task_eq := rfl }

/-- Every step of either side leads from the same point to the same point, when its cloud is of the
right kind and what it asks beside the rounds leaves like engines alike. -/
theorem next (h : L.Level w w') {x : Interplay.Event}
    (hcloud : ∀ t c packed, x = .arrive t c → c.packed = .ok packed → L.clouds packed)
    (haside : ∀ y, x = .aside y → L.Like (w.engine.aside y) (w'.engine.aside y)) :
    L.Level (w.next x) (w'.next x) := by
  have hattempt := h.attempt
  have hshutdown := h.shutdown
  obtain ⟨engine, scheduler, now, guard, task, turns, retries⟩ := w
  obtain ⟨engine', scheduler', now', guard', task', turns', retries'⟩ := w'
  obtain ⟨hengine, hturns, hscheduler, hnow, hguard, htask, hretries⟩ := h
  obtain rfl : scheduler' = scheduler := hscheduler
  obtain rfl : now' = now := hnow
  obtain rfl : guard' = guard := hguard
  obtain rfl : task' = task := htask
  obtain rfl : retries' = retries := hretries
  have h : L.Level ⟨engine, scheduler', now', guard', task', turns, retries'⟩
      ⟨engine', scheduler', now', guard', task', turns', retries'⟩ :=
    ⟨hengine, hturns, rfl, rfl, rfl, rfl, rfl⟩
  cases x with
  | pass nanos => exact ⟨hengine, hturns, rfl, rfl, rfl, rfl, rfl⟩
  | acquire => cases guard' <;> exact ⟨hengine, hturns, rfl, rfl, rfl, rfl, rfl⟩
  | arrive t c =>
    cases guard' with
    | held => exact h.arrive (fun packed => hcloud t c packed rfl) t
    | _ => exact h
  | post => cases guard' <;> exact ⟨hengine, hturns, rfl, rfl, rfl, rfl, rfl⟩
  | release => cases guard' <;> exact ⟨hengine, hturns, rfl, rfl, rfl, rfl, rfl⟩
  | aside y => exact ⟨haside y rfl, hturns, rfl, rfl, rfl, rfl, rfl⟩
  | look => cases task' <;> exact ⟨hengine, hturns, rfl, rfl, rfl, rfl, rfl⟩
  | wake =>
    cases task' with
    | waiting =>
      unfold Interplay.next
      dsimp only
      split
      · exact ⟨hengine, hturns, rfl, rfl, rfl, rfl, rfl⟩
      · exact h
    | _ => exact h
  | attempt =>
    cases task' with
    | woken start => exact hattempt start
    | _ => exact h
  | conclude => cases task' <;> exact ⟨hengine, hturns, rfl, rfl, rfl, rfl, rfl⟩
  | shutdown =>
    cases guard' with
    | free => exact hshutdown
    | _ => exact h

/-- The clouds of a closed round are of the kind that is taken in. -/
theorem held (h : L.Level w w') {now : Instant} {r : ClosedRound}
    (hr : (now, .closed r) ∈ w.turns) : r.slots.Each L.clouds := by
  obtain ⟨-, hturns, -⟩ := h
  generalize w.turns = turns at hturns hr
  generalize w'.turns = turns' at hturns
  induction hturns with
  | nil => exact absurd hr List.not_mem_nil
  | @cons p q _ _ hhead _ ih =>
    obtain ⟨now', turn'⟩ := q
    rcases List.mem_cons.1 hr with rfl | hr
    · obtain ⟨-, hturn⟩ := hhead
      cases hturn with
      | closed held _ => exact held
    · exact ih hr

/-- The first interleaving alone asks for something beside the rounds. -/
theorem aside_left (h : L.Level w w') (x : Engine.Aside)
    (hmotions : L.motions (x.compensator w.engine.compensator) w'.engine.compensator)
    (hqueues : L.queues (x.output w.engine.output) w'.engine.output) :
    L.Level (w.next (.aside x)) w' :=
  { h with engine := h.engine.aside_left x hmotions hqueues }

/-- The second interleaving alone asks for something beside the rounds. -/
theorem aside_right (h : L.Level w w') (x : Engine.Aside)
    (hmotions : L.motions w.engine.compensator (x.compensator w'.engine.compensator))
    (hqueues : L.queues w.engine.output (x.output w'.engine.output)) :
    L.Level w (w'.next (.aside x)) :=
  { h with engine := h.engine.aside_right x hmotions hqueues }

end Level

end Likeness

end LidarSync
