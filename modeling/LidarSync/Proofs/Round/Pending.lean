import LidarSync.Proofs.Round.Collector

/-!
# Pending lists

What the two sets of slots of a collector stand for: one list of waiting clouds for each topic
(`Pending`). An arrival appends to the list of its topic. A timeout hands out the first cloud of
every list and keeps only the last one of the others; completion hands out the last cloud of every
list and keeps nothing. `Pending.Holds.call` is the simulation step between a collector and the list
of one topic. Calls are numbered from zero; a cloud is told apart by the number of the call that
brought it.
-/

namespace LidarSync

/-- A call on a collector: a cloud arrives on a topic, or the round is closed. -/
inductive Collector.Call where
  | arrive (t : Topic) (cloud : Cloud)
  | close (trigger : Trigger)

/-- A collector after a number of calls, with the slots that closes handed out, each under the number
of its call. -/
structure Session where
  collector : Collector
  calls : Nat := 0
  handed : List (Nat × TopicSlots) := []

namespace Session

/-- One call more. A cloud of a topic without a slot is turned away. -/
def call (s : Session) : Collector.Call → Session
  | .arrive t cloud =>
    let collector := match s.collector.arrive t cloud with
      | some (_, collector) => collector
      | none => s.collector
    { s with collector, calls := s.calls + 1 }
  | .close trigger =>
    let (slots, collector) := s.collector.close trigger
    ⟨collector, s.calls + 1, s.handed ++ [(s.calls, slots)]⟩

/-- The session that calls lead to. -/
def run (s : SyncSettings) (xs : List Collector.Call) : Session :=
  xs.foldl call ⟨.ofSettings s, 0, []⟩

theorem run_concat (s : SyncSettings) (xs : List Collector.Call) (x : Collector.Call) :
    run s (xs ++ [x]) = (run s xs).call x := by
  unfold run
  rw [List.foldl_append]
  rfl

end Session

/-- A cloud with the number of the call that brought it. -/
abbrev Numbered := Nat × Cloud

/-- The waiting clouds of a topic, the oldest first, and what closes handed out of them, each under
the number of its call. -/
structure Pending where
  waiting : List Numbered := []
  calls : Nat := 0
  handed : List (Nat × Option Numbered) := []

namespace Pending

/-- The cloud of a list that a close hands out. -/
def chosen : Trigger → List Numbered → Option Numbered
  | .complete, w => w.getLast?
  | .timeout, w => w.head?

/-- The clouds of a list that a close keeps. -/
def kept : Trigger → List Numbered → List Numbered
  | .complete, _ => []
  | .timeout, w => w.tail.getLast?.toList

/-- One call more, as the list of a topic sees it. -/
def call (t : Topic) (p : Pending) : Collector.Call → Pending
  | .arrive t' cloud =>
    { p with
      waiting := if t' = t then p.waiting ++ [(p.calls, cloud)] else p.waiting
      calls := p.calls + 1 }
  | .close trigger =>
    ⟨kept trigger p.waiting, p.calls + 1, p.handed ++ [(p.calls, chosen trigger p.waiting)]⟩

/-- The list of a topic that calls lead to. -/
def run (t : Topic) (xs : List Collector.Call) : Pending := xs.foldl (call t) {}

theorem run_concat (t : Topic) (xs : List Collector.Call) (x : Collector.Call) :
    run t (xs ++ [x]) = (run t xs).call t x := by
  unfold run
  rw [List.foldl_append]
  rfl

/-- The clouds that were handed out, in the order of the closes. -/
def given (p : Pending) : List Numbered := p.handed.filterMap Prod.snd

/-! ## The simulation -/

/-- What is held of a topic whose list is `w`: the first cloud, and the last one of the others. -/
def shown (w : List Numbered) : Option Cloud × Option Cloud :=
  (w.head?.map Prod.snd, w.tail.getLast?.map Prod.snd)

/-- A session holds what the list of a topic shows, and has handed out the same clouds of it. -/
structure Holds (t : Topic) (s : Session) (p : Pending) : Prop where
  calls : s.calls = p.calls
  held : s.collector.held t = shown p.waiting
  handed : s.handed.map (fun h => (h.1, h.2.cloud? t))
    = p.handed.map (fun h => (h.1, h.2.map Prod.snd))

variable {t : Topic} {s : Session} {p : Pending}

theorem shown_concat (w : List Numbered) (n : Nat) (cloud : Cloud) :
    shown (w ++ [(n, cloud)]) = Collector.withCloud cloud (shown w) := by
  cases w with
  | nil => rfl
  | cons q rest =>
    unfold shown
    rw [List.cons_append, List.tail_cons, List.getLast?_concat]
    rfl

theorem shown_kept (trigger : Trigger) (w : List Numbered) :
    shown (kept trigger w) = match trigger with
      | .complete => (none, none)
      | .timeout => ((shown w).2, none) := by
  cases trigger with
  | complete => rfl
  | timeout =>
    cases h : w.tail.getLast? with
    | none => simp only [shown, kept, h]; rfl
    | some q => simp only [shown, kept, h]; rfl

theorem map_chosen (trigger : Trigger) (w : List Numbered) :
    (chosen trigger w).map Prod.snd = match trigger with
      | .complete => (shown w).2.or (shown w).1
      | .timeout => (shown w).1 := by
  cases trigger with
  | timeout => rfl
  | complete =>
    cases w with
    | nil => rfl
    | cons q rest =>
      change (q :: rest).getLast?.map Prod.snd = (rest.getLast?.map Prod.snd).or (some q.2)
      rw [List.getLast?_cons]
      cases rest.getLast? <;> rfl

/-- One call of a sound collector is one call of the list of each of its topics. -/
theorem Holds.call (h : Holds t s p) (hs : s.collector.Sound) (ht : t ∈ s.collector.topics)
    (x : Collector.Call) : Holds t (s.call x) (p.call t x) := by
  cases x with
  | arrive t' cloud =>
    refine ⟨congrArg (· + 1) h.calls, ?_, h.handed⟩
    cases ha : s.collector.arrive t' cloud with
    | none =>
      have hne : t' ≠ t := by
        rintro rfl
        exact Collector.arrive_eq_none_iff.1 ha (hs.mem_current.2 ht)
      simp only [Session.call, ha, Pending.call, if_neg hne]
      exact h.held
    | some r =>
      have heq := hs.held_arrive ha t
      simp only [Session.call, ha, Pending.call]
      rw [heq]
      by_cases he : t = t'
      · rw [if_pos he, if_pos he.symm, h.held, shown_concat]
      · rw [if_neg he, if_neg (Ne.symm he), h.held]
  | close trigger =>
    refine ⟨congrArg (· + 1) h.calls, ?_, ?_⟩
    · have hclose := Collector.held_close s.collector trigger t
      rw [h.held] at hclose
      exact hclose.trans (shown_kept trigger p.waiting).symm
    · have hcloud : (s.collector.close trigger).1.cloud? t
          = (chosen trigger p.waiting).map Prod.snd := by
        have hclose := hs.cloud?_close trigger t
        rw [h.held] at hclose
        exact hclose.trans (map_chosen trigger p.waiting).symm
      change (s.handed ++ [(s.calls, (s.collector.close trigger).1)]).map _
        = (p.handed ++ [(p.calls, chosen trigger p.waiting)]).map _
      simp only [List.map_append, List.map_singleton, h.handed, h.calls, hcloud]

end Pending

/-! ## Whole sessions -/

namespace Session

theorem topics_call (s : Session) (x : Collector.Call) :
    (s.call x).collector.topics = s.collector.topics := by
  cases x with
  | arrive t cloud =>
    cases ha : s.collector.arrive t cloud with
    | none => simp only [call, ha]
    | some r =>
      simp only [call, ha]
      exact (Collector.arrive_frame ha).1
  | close trigger => exact (Collector.close_frame s.collector trigger).1

theorem topics_run (s : SyncSettings) (xs : List Collector.Call) :
    (run s xs).collector.topics = s.inputTopics := by
  induction xs using List.reverseRecOn with
  | nil => rfl
  | append_singleton xs x ih => rw [run_concat, topics_call, ih]

theorem sound_run (s : SyncSettings) (xs : List Collector.Call) : (run s xs).collector.Sound := by
  induction xs using List.reverseRecOn with
  | nil => exact Collector.ofSettings_sound s
  | append_singleton xs x ih =>
    rw [run_concat]
    cases x with
    | arrive t cloud =>
      cases ha : (run s xs).collector.arrive t cloud with
      | none =>
        simp only [call, ha]
        exact ih
      | some r =>
        simp only [call, ha]
        exact ih.arrive ha
    | close trigger => exact ih.close trigger

/-- Every close hands out slots for exactly the topics of the settings. -/
theorem keys_handed (s : SyncSettings) (xs : List Collector.Call) :
    ∀ h ∈ (run s xs).handed, Keyed.keys h.2 = ascending s.inputTopics := by
  induction xs using List.reverseRecOn with
  | nil => exact fun h hh => absurd hh (by simp [run])
  | append_singleton xs x ih =>
    rw [run_concat]
    cases x with
    | arrive t cloud => exact ih
    | close trigger =>
      intro h hh
      rcases List.mem_append.1 hh with hh | hh
      · exact ih h hh
      · rw [List.mem_singleton.1 hh, ← topics_run s xs]
        exact (sound_run s xs).keys_close trigger

/-- The session holds the list of each topic. -/
theorem holds_run (s : SyncSettings) (xs : List Collector.Call) {t : Topic}
    (ht : t ∈ s.inputTopics) : Pending.Holds t (run s xs) (Pending.run t xs) := by
  induction xs using List.reverseRecOn with
  | nil => exact ⟨rfl, Collector.held_ofSettings s t, rfl⟩
  | append_singleton xs x ih =>
    rw [run_concat, Pending.run_concat]
    exact ih.call (sound_run s xs) (by rwa [topics_run]) x

end Session

end LidarSync
