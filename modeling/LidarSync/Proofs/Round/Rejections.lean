import LidarSync.Proofs.Metrics.Recorder
import LidarSync.Proofs.Round.Acceptance
import LidarSync.Proofs.Round.Status

/-!
# Clouds that are turned away leave no trace

Two engines are alike when they differ at most in the refusals that they count. Whatever happens to
alike engines has the same outcome and leaves them alike, and so do interleavings
(`Interplay.Alike.next`). An arrival that is turned away leads to a state alike to the one to which
what happens meanwhile leads without it, as long as the task makes no attempt meanwhile
(`Interplay.alike_amid`). So it can be left out of a run (`Interplay.alike_perform`).
-/

namespace LidarSync

/-! ## Alike engines -/

namespace Engine

/-- The engines differ at most in the refusals that they count. -/
def Alike (e e' : Engine) : Prop := ∃ r, e.metrics.Alike r ∧ e' = { e with metrics := r }

end Engine

/-- The engines are alike, and the same became of their rounds. -/
structure Taken.Alike (x y : Taken) : Prop where
  turn_eq : y.turn = x.turn
  engine : x.engine.Alike y.engine

theorem Taken.Alike.isSome_engine? {x y : Taken} (h : x.Alike y) :
    y.engine?.isSome = x.engine?.isSome := by
  unfold Taken.engine?
  rw [h.turn_eq]
  cases x.turn with
  | kept => rfl
  | armed due => rfl
  | closed r => cases hset : r.set? <;> simp [hset]

namespace Engine.Alike

variable {e e' : Engine}

theorem noteTruncations (h : Alike e e') (n : Nat) :
    Alike (e.noteTruncations n) (e'.noteTruncations n) := by
  obtain ⟨r, hr, rfl⟩ := h
  unfold Engine.noteTruncations
  split
  · exact ⟨r, hr, rfl⟩
  · exact ⟨_, hr.count Series.truncations n, rfl⟩

theorem publish (h : Alike e e') (s : SyncedSet) : Alike (e.publish s) (e'.publish s) := by
  obtain ⟨r, hr, rfl⟩ := h
  unfold Engine.publish
  dsimp only
  split
  · exact ⟨_, hr.tick Series.outputDropped, rfl⟩
  · exact ⟨r, hr, rfl⟩

theorem closeRound (h : Alike e e') (now : Instant) (trigger : Trigger) :
    (e.closeRound now trigger).Alike (e'.closeRound now trigger) := by
  obtain ⟨r, hr, rfl⟩ := h
  unfold Engine.closeRound
  dsimp only
  split
  · exact ⟨rfl, r, hr, rfl⟩
  · next aligned _ =>
    obtain ⟨r', hr', heq⟩ :=
      noteTruncations (e := e) ⟨r, hr, rfl⟩ aligned.truncations
    rw [heq]
    refine ⟨rfl, ?_⟩
    apply publish
    exact ⟨_, hr'.round _, rfl⟩

theorem takeIn (h : Alike e e') (now : Instant) (t : Topic) (c : Cloud) :
    (e.takeIn now t c).Alike (e'.takeIn now t c) := by
  obtain ⟨r, hr, rfl⟩ := h
  have hreceived := hr.tick (Series.cloudsReceived t)
  unfold Engine.takeIn
  dsimp only
  split
  · exact ⟨rfl, _, hreceived, rfl⟩
  · apply closeRound
    exact ⟨_, hreceived, rfl⟩
  · exact ⟨rfl, _, hreceived, rfl⟩
  · exact ⟨rfl, _, hreceived, rfl⟩

theorem cloud (h : Alike e e') (now : Instant) (t : Topic) (c : Cloud) :
    (e.cloud now t c).2.Alike (e'.cloud now t c).2 := by
  have htake := h.takeIn now t
  obtain ⟨r, hr, rfl⟩ := h
  have haccept : Engine.accept { e with metrics := r } t c = e.accept t c := rfl
  unfold Engine.cloud
  rw [haccept]
  cases e.accept t c with
  | error fault => exact ⟨rfl, _, hr.tick _, rfl⟩
  | ok packed => exact htake packed

theorem fire (h : Alike e e') (now : Instant) :
    (e'.fire now).1 = (e.fire now).1 ∧ (e.fire now).2.Alike (e'.fire now).2 := by
  obtain ⟨r, hr, rfl⟩ := h
  unfold Engine.fire
  dsimp only
  split
  · exact ⟨rfl, closeRound (e := { e with deadline := none }) ⟨r, hr, rfl⟩ now .timeout⟩
  · exact ⟨rfl, rfl, r, hr, rfl⟩

theorem aside (h : Alike e e') (x : Engine.Aside) : Alike (e.aside x) (e'.aside x) := by
  cases x with
  | velocity v =>
    obtain ⟨r, hr, rfl⟩ := h
    exact ⟨_, hr.tick Series.velocitySamples, rfl⟩
  | receive =>
    obtain ⟨r, hr, rfl⟩ := h
    exact ⟨r, hr, rfl⟩
  | dropReceiver =>
    obtain ⟨r, hr, rfl⟩ := h
    exact ⟨r, hr, rfl⟩
  | compensate start stop =>
    have hnote := h.noteTruncations
    obtain ⟨r, hr, rfl⟩ := h
    change Alike (((e.compensate start stop).map Prod.snd).getD e)
      (((Engine.compensate { e with metrics := r } start stop).map Prod.snd).getD
        { e with metrics := r })
    unfold Engine.compensate
    dsimp only
    cases e.compensator.history.compensate start stop with
    | none => exact ⟨r, hr, rfl⟩
    | some answer => exact hnote _

end Engine.Alike

/-! ## Alike interleavings -/

/-- Whether a turn is more than that a round goes on under the deadline that it had. -/
def Turn.changes : Turn → Bool
  | .kept => false
  | _ => true

namespace Interplay

/-- The turns that changed something. -/
def changes (turns : Turns) : Turns := turns.filter (·.2.changes)

/-- The interleavings are at the same point, and they differ at most in the refusals that they count
and in turns that changed nothing. -/
def Alike (w w' : Interplay) : Prop :=
  ∃ e turns, w.engine.Alike e ∧ changes turns = changes w.turns ∧
    w' = { w with engine := e, turns := turns }

theorem changes_cons {turns turns' : Turns} (h : changes turns' = changes turns)
    (q : Instant × Turn) : changes (q :: turns') = changes (q :: turns) := by
  unfold changes at h ⊢
  rw [List.filter_cons, List.filter_cons, h]

namespace Alike

variable {w w' : Interplay}

theorem refl (w : Interplay) : Alike w w :=
  ⟨w.engine, w.turns, ⟨_, Recorder.Alike.refl _, rfl⟩, rfl, rfl⟩

theorem trans {w'' : Interplay} (h : Alike w w') (h' : Alike w' w'') : Alike w w'' := by
  obtain ⟨e, turns, ⟨r, hr, rfl⟩, hturns, rfl⟩ := h
  obtain ⟨e', turns', ⟨r', hr', rfl⟩, hturns', rfl⟩ := h'
  exact ⟨_, turns', ⟨r', hr.trans hr', rfl⟩, hturns'.trans hturns, rfl⟩

theorem arrive (h : Alike w w') (t : Topic) (c : Cloud) : Alike (w.arrive t c) (w'.arrive t c) := by
  obtain ⟨e, turns, he, hturns, rfl⟩ := h
  obtain ⟨hturn, hengine⟩ := he.cloud w.now t c
  unfold Interplay.arrive
  dsimp only
  rw [hturn]
  exact ⟨_, _, hengine, changes_cons hturns _, rfl⟩

theorem attempt (h : Alike w w') (start : Instant) : Alike (w.attempt start) (w'.attempt start) := by
  obtain ⟨e, turns, he, hturns, rfl⟩ := h
  obtain ⟨houtcome, hfire⟩ := he.fire start
  have hsome := hfire.isSome_engine?
  obtain ⟨hturn, hengine⟩ := hfire
  unfold Interplay.attempt
  dsimp only
  split
  · rw [houtcome, hturn, hsome]
    exact ⟨_, _, hengine, changes_cons hturns _, rfl⟩
  · exact ⟨e, turns, he, hturns, rfl⟩

/-- Every step of either side leaves alike interleavings alike. -/
theorem next (h : Alike w w') (x : Event) : Alike (w.next x) (w'.next x) := by
  have harrive := h.arrive
  have hattempt := h.attempt
  obtain ⟨e, turns, he, hturns, rfl⟩ := h
  obtain ⟨engine, scheduler, now, guard, task, turns₀, retries⟩ := w
  cases x with
  | pass nanos => exact ⟨e, turns, he, hturns, rfl⟩
  | acquire => cases guard <;> exact ⟨e, turns, he, hturns, rfl⟩
  | arrive t c =>
    cases guard with
    | held => exact harrive t c
    | _ => exact ⟨e, turns, he, hturns, rfl⟩
  | post => cases guard <;> exact ⟨e, turns, he, hturns, rfl⟩
  | release => cases guard <;> exact ⟨e, turns, he, hturns, rfl⟩
  | aside y => exact ⟨_, turns, he.aside y, hturns, rfl⟩
  | look => cases task <;> exact ⟨e, turns, he, hturns, rfl⟩
  | wake =>
    cases task with
    | waiting =>
      unfold Interplay.next
      dsimp only
      split
      · exact ⟨e, turns, he, hturns, rfl⟩
      · exact ⟨e, turns, he, hturns, rfl⟩
    | _ => exact ⟨e, turns, he, hturns, rfl⟩
  | attempt =>
    cases task with
    | woken start => exact hattempt start
    | _ => exact ⟨e, turns, he, hturns, rfl⟩
  | conclude => cases task <;> exact ⟨e, turns, he, hturns, rfl⟩
  | shutdown =>
    cases guard with
    | free =>
      obtain ⟨r, hr, rfl⟩ := he
      exact ⟨_, turns, ⟨r, hr, rfl⟩, hturns, rfl⟩
    | _ => exact ⟨e, turns, he, hturns, rfl⟩

theorem after (h : Alike w w') (xs : List Event) : Alike (w.after xs) (w'.after xs) := by
  induction xs generalizing w w' with
  | nil => exact h
  | cons x xs ih => exact ih (h.next x)

end Alike

/-! ## Beside the lock -/

/-- Whether an event has nothing to do with the lock. -/
def Event.isBeside : Event → Bool
  | .pass _ | .aside _ | .look | .wake | .conclude => true
  | _ => false

/-- What happens beside the lock is the same whoever holds it. -/
theorem next_guard {x : Event} (hx : x.isBeside = true) (w : Interplay) (g : Guard) :
    ({ w with guard := g } : Interplay).next x = { w.next x with guard := g } := by
  obtain ⟨engine, scheduler, now, guard, task, turns, retries⟩ := w
  cases x with
  | pass nanos => rfl
  | aside y => rfl
  | look => cases task <;> rfl
  | wake =>
    cases task with
    | waiting =>
      unfold Interplay.next
      dsimp only
      split
      · rfl
      · rfl
    | _ => rfl
  | conclude => cases task <;> rfl
  | _ => exact absurd hx nofun

theorem after_guard {xs : List Event} (hxs : ∀ x ∈ xs, x.isBeside = true) (w : Interplay) (g : Guard) :
    ({ w with guard := g } : Interplay).after xs = { w.after xs with guard := g } := by
  induction xs generalizing w with
  | nil => rfl
  | cons x rest ih =>
    rw [List.forall_mem_cons] at hxs
    change (({ w with guard := g } : Interplay).next x).after rest = _
    rw [next_guard hxs.1]
    exact ih hxs.2 (w.next x)

theorem guard_after {xs : List Event} (hxs : ∀ x ∈ xs, x.isBeside = true) (w : Interplay) :
    (w.after xs).guard = w.guard := by
  have hkept : w.after xs = { w.after xs with guard := w.guard } := after_guard hxs w w.guard
  rw [hkept]

/-! ## Whole arrivals -/

/-- What can be done: one step of either side, or an arrival that nothing comes between. An arrival
that the task meets at the lock is made of steps, since it puts off the attempt of the task even when
its cloud is turned away. -/
inductive Deed where
  | part (x : Event)
  | cloud (t : Topic) (c : Cloud)

/-- The steps of an arrival, with what happens before and after the cloud is taken in. -/
def arrivingAmid (t : Topic) (c : Cloud) (before after : List Event) : List Event :=
  .acquire :: before ++ .arrive t c :: after ++ [.post, .release]

/-- The steps of an arrival that nothing comes between. -/
def arriving (t : Topic) (c : Cloud) : List Event := arrivingAmid t c [] []

/-- An arrival takes the lock if it is free, and it has the lock when the cloud is taken in. -/
theorem after_arrivingAmid {w : Interplay} (hfree : w.guard = .free) {t : Topic} {c : Cloud}
    {before after : List Event} (hbefore : ∀ x ∈ before, x.isBeside = true) :
    w.after (arrivingAmid t c before after)
      = (((({ w.after before with guard := .held } : Interplay).arrive t c).after after).next
        .post).next .release := by
  have hacquire : w.next .acquire = { w with guard := .held } := by
    unfold Interplay.next
    rw [hfree]
  have hsteps : w.after (arrivingAmid t c before after)
      = (((((w.next .acquire).after before).next (.arrive t c)).after after).next .post).next
        .release :=
    (w.after_append (.acquire :: before ++ .arrive t c :: after) [.post, .release]).trans
      (congrArg (fun v => (v.next .post).next .release)
        ((w.next .acquire).after_append before (.arrive t c :: after)))
  rw [hsteps, hacquire, after_guard hbefore]
  rfl

/-- One deed. Nobody arrives while someone else holds the lock. -/
def act (w : Interplay) : Deed → Interplay
  | .part x => w.next x
  | .cloud t c =>
    match w.guard with
    | .free => w.after (arriving t c)
    | _ => w

/-- Where deeds lead from a state. -/
def perform (w : Interplay) (xs : List Deed) : Interplay := xs.foldl act w

theorem perform_concat (w : Interplay) (xs : List Deed) (x : Deed) :
    w.perform (xs ++ [x]) = (w.perform xs).act x := by
  unfold perform
  rw [List.foldl_append]
  rfl

/-- Whether a deed is anything but an arrival that is turned away. -/
def Deed.counts (s : SyncSettings) : Deed → Bool
  | .part _ => true
  | .cloud t c => s.accepts t c

theorem Alike.act {w w' : Interplay} (h : Alike w w') (x : Deed) : Alike (w.act x) (w'.act x) := by
  cases x with
  | part x => exact h.next x
  | cloud t c =>
    have harriving := h.after (arriving t c)
    obtain ⟨e, turns, he, hturns, rfl⟩ := h
    unfold Interplay.act
    dsimp only
    split
    · exact harriving
    · exact ⟨e, turns, he, hturns, rfl⟩

theorem Alike.perform {w w' : Interplay} (h : Alike w w') (xs : List Deed) :
    Alike (w.perform xs) (w'.perform xs) := by
  induction xs generalizing w w' with
  | nil => exact h
  | cons x rest ih => exact ih (h.act x)

section Runs

variable {s : SyncSettings} {w : Interplay}

theorem informed_act (h : Informed s w) (x : Deed) : Informed s (w.act x) := by
  cases x with
  | part x => exact h.next x
  | cloud t c =>
    unfold act
    dsimp only
    split
    · exact h.after (arriving t c)
    · exact h

theorem informed_perform (s : SyncSettings) (m : Transformer ReprojectFault) (halving : Halving Float)
    (xs : List Deed) : Informed s ((ofTransformer s m halving).perform xs) := by
  induction xs using List.reverseRecOn with
  | nil => exact Informed.ofTransformer s m halving
  | append_singleton xs x ih =>
    rw [perform_concat]
    exact informed_act ih x

/-- Without an arrival that is turned away while the task makes no attempt, what happens meanwhile leads
to a state like the one to which it leads with the arrival. -/
theorem alike_amid (h : Informed s w) (hfree : w.guard = .free) {t : Topic} {c : Cloud}
    (hc : s.accepts t c = false) {before after : List Event}
    (hbefore : ∀ x ∈ before, x.isBeside = true) (hafter : ∀ x ∈ after, x.isBeside = true) :
    Alike (w.after (before ++ after)) (w.after (arrivingAmid t c before after)) := by
  rw [after_arrivingAmid hfree hbefore, after_append]
  -- The cloud is turned away in the state `v`, to which `before` leads.
  have hinformed := h.after before
  have hguard := (guard_after hbefore w).trans hfree
  generalize w.after before = v at hinformed hguard ⊢
  obtain ⟨reason, hcloud⟩ := Engine.cloud_of_not_accepts hinformed.sound hinformed.topics_eq hc v.now
  have harrive : Alike { v with guard := .done }
      (({ v with guard := .held } : Interplay).arrive t c) := by
    unfold Interplay.arrive
    dsimp only
    rw [hcloud]
    exact ⟨_, (v.now, .kept) :: v.turns,
      ⟨_, (Recorder.Alike.reject v.engine.metrics t reason).symm, rfl⟩, rfl, rfl⟩
  have hrest := ((harrive.after after).next .post).next .release
  have hleft : ((({ v with guard := .done } : Interplay).after after).next .post).next .release
      = v.after after := by
    rw [after_guard hafter]
    change { v.after after with guard := .free } = v.after after
    rw [← hguard, ← guard_after hafter v]
  rw [hleft] at hrest
  exact hrest

/-- An arrival that is turned away leads to a state like the one before it. -/
theorem alike_turned_away (h : Informed s w) {t : Topic} {c : Cloud} (hc : s.accepts t c = false) :
    Alike w (w.act (.cloud t c)) := by
  cases hguard : w.guard with
  | free =>
    have hact : w.act (.cloud t c) = w.after (arriving t c) := by
      unfold act
      rw [hguard]
    have hamid := alike_amid h hguard hc (List.forall_mem_nil _) (List.forall_mem_nil _)
    rw [hact]
    exact hamid
  | _ =>
    have hact : w.act (.cloud t c) = w := by
      unfold act
      rw [hguard]
    rw [hact]
    exact Alike.refl w

/-- The arrivals that are turned away can be left out. -/
theorem alike_perform (s : SyncSettings) (m : Transformer ReprojectFault) (halving : Halving Float)
    (xs : List Deed) :
    Alike ((ofTransformer s m halving).perform (xs.filter (·.counts s)))
      ((ofTransformer s m halving).perform xs) := by
  induction xs using List.reverseRecOn with
  | nil => exact Alike.refl _
  | append_singleton xs x ih =>
    rw [perform_concat, List.filter_append]
    cases hx : x.counts s with
    | true =>
      rw [List.filter_cons_of_pos hx, List.filter_nil, perform_concat]
      exact ih.act x
    | false =>
      have hdropped : [x].filter (·.counts s) = [] := by simp [hx]
      rw [hdropped, List.append_nil]
      refine ih.trans ?_
      cases x with
      | part y => exact absurd hx nofun
      | cloud t c => exact alike_turned_away (informed_perform s m halving xs) hx

end Runs

/-- A cloud is refused when it cannot be packed, and otherwise when its topic is not configured,
whatever the state. Without the arrivals that are turned away, an interleaving of whole arrivals with
steps of any kind leads to the same point: the same rounds were armed and closed at the same instants
with the same sets, and the clouds that are held, the deadline, the reports, the number of rounds, the
output and what the task is about to do are the same. Only the counters of refused clouds differ. That
also holds without an arrival that is given step by step, if the task makes no attempt meanwhile. -/
theorem rejections_leave_no_trace (s : SyncSettings) (m : Transformer ReprojectFault)
    (halving : Halving Float) (xs : List Deed) :
    let w := (ofTransformer s m halving).perform xs
    let w' := (ofTransformer s m halving).perform (xs.filter (·.counts s))
    (∀ t c, (w.engine.cloud w.now t c).1 = match c.packed with
      | .error fault => .error (.malformed c.frame fault)
      | .ok _ => if t ∈ s.inputTopics then .ok () else .error (.unknownTopic t)) ∧
    (∀ t c, (Deed.cloud t c).counts s = false ↔
      ∃ fault, (w.engine.cloud w.now t c).1 = .error fault) ∧
    changes w.turns = changes w'.turns ∧
    w.engine.collector = w'.engine.collector ∧ w.engine.deadline = w'.engine.deadline ∧
    w.engine.diagnostics = w'.engine.diagnostics ∧ w.engine.rounds = w'.engine.rounds ∧
    w.engine.lastPublish = w'.engine.lastPublish ∧ w.engine.output = w'.engine.output ∧
    w.engine.compensator = w'.engine.compensator ∧
    w.now = w'.now ∧ w.scheduler = w'.scheduler ∧ w.guard = w'.guard ∧ w.task = w'.task ∧
    w.retries = w'.retries ∧ w'.engine.metrics.Alike w.engine.metrics ∧
    ∀ t c before after, s.accepts t c = false → w.guard = .free →
      (∀ x ∈ before, x.isBeside = true) → (∀ x ∈ after, x.isBeside = true) →
      ∀ ys, Alike ((w.after (before ++ after)).perform ys)
        ((w.after (arrivingAmid t c before after)).perform ys) := by
  intro w w'
  have h : Informed s w := informed_perform s m halving xs
  have hanswer : ∀ t c, (w.engine.cloud w.now t c).1 = s.answer t c := fun t c =>
    Engine.cloud_answer h.sound h.topics_eq w.now
  have halike : Alike w' w := alike_perform s m halving xs
  obtain ⟨e, turns, ⟨r, hr, rfl⟩, hturns, heq⟩ := halike
  refine ⟨hanswer, fun t c => ?_, ?_⟩
  · rw [hanswer]
    exact s.accepts_eq_false_iff
  · rw [heq] at h ⊢
    exact ⟨hturns, rfl, rfl, rfl, rfl, rfl, rfl, rfl, rfl, rfl, rfl, rfl, rfl, hr,
      fun _ _ _ _ hc hfree hbefore hafter => (alike_amid h hfree hc hbefore hafter).perform⟩

end Interplay

end LidarSync
