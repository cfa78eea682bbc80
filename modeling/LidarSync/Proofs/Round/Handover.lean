import LidarSync.Proofs.Blueprint.Valid
import LidarSync.Proofs.Round.Pending

/-!
# Order and age of what is handed out

What a run does to the clouds of one topic (`Pending.Traced`): they are handed out in the order in
which they arrived and none twice, the latest one is never lost, and none is handed out that is
older than the close before the previous one. The facts are about pending lists, which
`Pending.Holds` ties to the slots of a collector; `Session.run_refines` says both together.
-/

namespace LidarSync

namespace Pending

open Collector (Call)

variable {t : Topic} {xs : List Call} {p : Pending} {n : Nat} {cloud : Cloud} {w : List Numbered}

/-! ## What a close takes from a list -/

/-- A close hands out and keeps different clouds of a list, in their order. -/
theorem chosen_kept_sublist (trigger : Trigger) (w : List Numbered) :
    ((chosen trigger w).toList ++ kept trigger w).Sublist w := by
  cases trigger with
  | complete =>
    change (w.getLast?.toList ++ []).Sublist w
    rw [List.append_nil]
    cases h : w.getLast? with
    | none => exact List.nil_sublist w
    | some q => exact List.singleton_sublist.2 (List.mem_of_getLast? h)
  | timeout =>
    cases w with
    | nil => exact List.nil_sublist []
    | cons q rest =>
      change (q :: rest.getLast?.toList).Sublist (q :: rest)
      refine List.Sublist.cons_cons q ?_
      cases h : rest.getLast? with
      | none => exact List.nil_sublist rest
      | some r => exact List.singleton_sublist.2 (List.mem_of_getLast? h)

theorem mem_tail_of_mem_kept {trigger : Trigger} {q : Numbered} (h : q ∈ kept trigger w) :
    q ∈ w.tail := by
  cases trigger with
  | complete => exact absurd h List.not_mem_nil
  | timeout => exact List.mem_of_getLast? (Option.mem_toList.1 h)

theorem tail_kept (trigger : Trigger) (w : List Numbered) : (kept trigger w).tail = [] := by
  cases trigger with
  | complete => rfl
  | timeout =>
    change w.tail.getLast?.toList.tail = []
    cases w.tail.getLast? <;> rfl

theorem chosen_or_kept_of_getLast? {q : Numbered} (h : w.getLast? = some q) (trigger : Trigger) :
    chosen trigger w = some q ∨ (kept trigger w).getLast? = some q := by
  cases trigger with
  | complete => exact Or.inl h
  | timeout =>
    cases w with
    | nil => exact absurd h (by simp)
    | cons r rest =>
      change some r = some q ∨ rest.getLast?.toList.getLast? = some q
      rw [List.getLast?_cons] at h
      cases hrest : rest.getLast? with
      | none =>
        rw [hrest] at h
        exact Or.inl h
      | some last =>
        rw [hrest] at h
        exact Or.inr h

theorem given_close (t : Topic) (p : Pending) (trigger : Trigger) :
    (p.call t (.close trigger)).given = p.given ++ (chosen trigger p.waiting).toList := by
  change (p.handed ++ [(p.calls, chosen trigger p.waiting)]).filterMap Prod.snd = _
  rw [List.filterMap_append]
  cases chosen trigger p.waiting <;> rfl

/-! ## The invariant -/

/-- A call is the latest one that brought a cloud of a topic. -/
def Latest (t : Topic) (xs : List Call) (n : Nat) (cloud : Cloud) : Prop :=
  xs[n]? = some (.arrive t cloud) ∧ ∀ m cloud', n < m → xs[m]? ≠ some (.arrive t cloud')

/-- What calls have made of the clouds of a topic. -/
structure Traced (t : Topic) (xs : List Call) (p : Pending) : Prop where
  calls : p.calls = xs.length
  ordered : (p.given ++ p.waiting).Pairwise (·.1 < ·.1)
  arrived : ∀ q ∈ p.given ++ p.waiting, xs[q.1]? = some (.arrive t q.2)
  closed : ∀ h ∈ p.handed, ∃ trigger, xs[h.1]? = some (.close trigger)
  latest : ∀ n cloud, Latest t xs n cloud →
    (n, cloud) ∈ p.given ∨ p.waiting.getLast? = some (n, cloud)
  /-- All waiting clouds but the first came after the last close. -/
  fresh : ∀ i m o, p.handed[i]? = some (m, o) → i + 1 = p.handed.length →
    ∀ q ∈ p.waiting.tail, m < q.1
  /-- All waiting clouds came after the close before the last one. -/
  recent : ∀ i m o, p.handed[i]? = some (m, o) → i + 2 = p.handed.length →
    ∀ q ∈ p.waiting, m < q.1
  aged : ∀ i m o k q, p.handed[i]? = some (m, o) → p.handed[i + 2]? = some (k, some q) → m < q.1

theorem Latest.lt (h : Latest t xs n cloud) : n < xs.length :=
  (List.getElem?_eq_some_iff.1 h.1).1

/-- The latest cloud stays the latest one unless the next call brings another. -/
theorem Latest.of_concat {x : Call} (h : Latest t (xs ++ [x]) n cloud)
    (hx : ∀ cloud', x ≠ .arrive t cloud') : Latest t xs n cloud := by
  have hlt : n < xs.length := by
    have hle := h.lt
    rw [List.length_append, List.length_singleton] at hle
    refine lt_of_le_of_ne (Nat.le_of_lt_succ hle) ?_
    rintro rfl
    have hat := h.1
    rw [List.getElem?_concat_length] at hat
    exact hx cloud (Option.some.inj hat)
  refine ⟨by rw [← h.1, List.getElem?_append_left hlt], fun m cloud' hm heq => ?_⟩
  have hmlt : m < xs.length := (List.getElem?_eq_some_iff.1 heq).1
  exact h.2 m cloud' hm (by rw [List.getElem?_append_left hmlt, heq])

theorem getElem?_concat {x y : Call} (h : xs[n]? = some y) : (xs ++ [x])[n]? = some y := by
  rw [List.getElem?_append_left (List.getElem?_eq_some_iff.1 h).1, h]

namespace Traced

theorem handed_lt (h : Traced t xs p) {q : Nat × Option Numbered} (hq : q ∈ p.handed) :
    q.1 < p.calls := by
  obtain ⟨_, hat⟩ := h.closed q hq
  rw [h.calls]
  exact (List.getElem?_eq_some_iff.1 hat).1

theorem arrive (h : Traced t xs p) (cloud : Cloud) :
    Traced t (xs ++ [.arrive t cloud]) (p.call t (.arrive t cloud)) := by
  have hw : (p.call t (.arrive t cloud)).waiting = p.waiting ++ [(p.calls, cloud)] := if_pos rfl
  have hg : (p.call t (.arrive t cloud)).given = p.given := rfl
  have hnew : ∀ i m o, p.handed[i]? = some (m, o) → m < p.calls := fun i m o hi =>
    h.handed_lt (List.mem_of_getElem? hi)
  refine ⟨by simp [Pending.call, h.calls], ?_, ?_, ?_, ?_, ?_, ?_, h.aged⟩
  · rw [hw, hg, ← List.append_assoc]
    refine List.pairwise_append.2 ⟨h.ordered, List.pairwise_singleton _ _, fun q hq r hr => ?_⟩
    rw [List.mem_singleton.1 hr, h.calls]
    exact (List.getElem?_eq_some_iff.1 (h.arrived q hq)).1
  · rw [hw, hg, ← List.append_assoc]
    intro q hq
    rcases List.mem_append.1 hq with hq | hq
    · exact getElem?_concat (h.arrived q hq)
    · rw [List.mem_singleton.1 hq, h.calls]
      exact List.getElem?_concat_length
  · intro q hq
    obtain ⟨trigger, hat⟩ := h.closed q hq
    exact ⟨trigger, getElem?_concat hat⟩
  · intro n c hlatest
    refine Or.inr ?_
    have hn : n = xs.length := by
      by_contra hne
      have hlt := hlatest.lt
      rw [List.length_append, List.length_singleton] at hlt
      exact hlatest.2 xs.length cloud (by omega) List.getElem?_concat_length
    subst hn
    have hat := hlatest.1
    rw [List.getElem?_concat_length] at hat
    cases hat
    rw [hw, List.getLast?_concat, h.calls]
  · intro i m o hi hlen q hq
    rw [hw] at hq
    cases hwait : p.waiting with
    | nil =>
      rw [hwait] at hq
      exact absurd hq List.not_mem_nil
    | cons first rest =>
      rw [hwait, List.cons_append, List.tail_cons] at hq
      rcases List.mem_append.1 hq with hq | hq
      · exact h.fresh i m o hi hlen q (by rw [hwait]; exact hq)
      · rw [List.mem_singleton.1 hq]
        exact hnew i m o hi
  · intro i m o hi hlen q hq
    rw [hw] at hq
    rcases List.mem_append.1 hq with hq | hq
    · exact h.recent i m o hi hlen q hq
    · rw [List.mem_singleton.1 hq]
      exact hnew i m o hi

theorem arrive_other (h : Traced t xs p) {t' : Topic} (hne : t' ≠ t) (cloud : Cloud) :
    Traced t (xs ++ [.arrive t' cloud]) (p.call t (.arrive t' cloud)) := by
  have hw : (p.call t (.arrive t' cloud)).waiting = p.waiting := if_neg hne
  have hg : (p.call t (.arrive t' cloud)).given = p.given := rfl
  refine ⟨by simp [Pending.call, h.calls], ?_, ?_, ?_, ?_, ?_, ?_, h.aged⟩
  · rw [hw, hg]
    exact h.ordered
  · rw [hw, hg]
    exact fun q hq => getElem?_concat (h.arrived q hq)
  · intro q hq
    obtain ⟨trigger, hat⟩ := h.closed q hq
    exact ⟨trigger, getElem?_concat hat⟩
  · intro n c hlatest
    rw [hw, hg]
    refine h.latest n c (hlatest.of_concat fun c' heq => ?_)
    exact hne (Call.arrive.inj heq).1
  · rw [hw]
    exact h.fresh
  · rw [hw]
    exact h.recent

theorem close (h : Traced t xs p) (trigger : Trigger) :
    Traced t (xs ++ [.close trigger]) (p.call t (.close trigger)) := by
  have hsub : ((p.call t (.close trigger)).given ++ (p.call t (.close trigger)).waiting).Sublist
      (p.given ++ p.waiting) := by
    rw [given_close, List.append_assoc]
    exact (chosen_kept_sublist trigger p.waiting).append_left p.given
  have hhanded : (p.call t (.close trigger)).handed
      = p.handed ++ [(p.calls, chosen trigger p.waiting)] := rfl
  have hw : (p.call t (.close trigger)).waiting = kept trigger p.waiting := rfl
  refine ⟨by simp [Pending.call, h.calls], h.ordered.sublist hsub, ?_, ?_, ?_, ?_, ?_, ?_⟩
  · exact fun q hq => getElem?_concat (h.arrived q (hsub.subset hq))
  · intro q hq
    rw [hhanded] at hq
    rcases List.mem_append.1 hq with hq | hq
    · obtain ⟨trigger', hat⟩ := h.closed q hq
      exact ⟨trigger', getElem?_concat hat⟩
    · rw [List.mem_singleton.1 hq, h.calls]
      exact ⟨trigger, List.getElem?_concat_length⟩
  · intro n c hlatest
    rw [given_close, List.mem_append, hw]
    have hother : ∀ cloud, Call.close trigger ≠ .arrive t cloud := by simp
    rcases h.latest n c (hlatest.of_concat hother) with hgiven | hlast
    · exact Or.inl (Or.inl hgiven)
    · rcases chosen_or_kept_of_getLast? hlast trigger with hchosen | hkept
      · exact Or.inl (Or.inr (Option.mem_toList.2 hchosen))
      · exact Or.inr hkept
  · intro i m o _ _ q hq
    rw [hw, tail_kept] at hq
    exact absurd hq List.not_mem_nil
  -- The close before the last one was the last one before this call.
  · intro i m o hi hlen q hq
    rw [hhanded, List.length_append, List.length_singleton] at hlen
    have hlt : i < p.handed.length := by omega
    rw [hhanded, List.getElem?_append_left hlt] at hi
    exact h.fresh i m o hi (by omega) q (mem_tail_of_mem_kept hq)
  · intro i m o k q hi hk
    have hlt : i + 2 < p.handed.length + 1 := by
      have hk' := (List.getElem?_eq_some_iff.1 hk).1
      rwa [hhanded, List.length_append, List.length_singleton] at hk'
    have hilt : i < p.handed.length := by omega
    rw [hhanded, List.getElem?_append_left hilt] at hi
    rw [hhanded] at hk
    by_cases hlen : i + 2 = p.handed.length
    · rw [hlen, List.getElem?_concat_length] at hk
      have hchosen : chosen trigger p.waiting = some q := (Prod.mk.inj (Option.some.inj hk)).2
      have hmem : q ∈ p.waiting := by
        refine (chosen_kept_sublist trigger p.waiting).subset (List.mem_append_left _ ?_)
        exact Option.mem_toList.2 hchosen
      exact h.recent i m o hi hlen q hmem
    · rw [List.getElem?_append_left (by omega)] at hk
      exact h.aged i m o k q hi hk

end Traced

/-- Runs keep the order of a topic, its latest cloud, and the age of what they hand out. -/
theorem traced_run (t : Topic) (xs : List Call) : Traced t xs (run t xs) := by
  induction xs using List.reverseRecOn with
  | nil => exact ⟨rfl, List.Pairwise.nil, nofun, nofun, fun _ _ h => absurd h.lt (by simp), nofun,
      nofun, nofun⟩
  | append_singleton xs x ih =>
    rw [run_concat]
    cases x with
    | arrive t' cloud =>
      by_cases ht : t' = t
      · subst ht
        exact ih.arrive cloud
      · exact ih.arrive_other ht cloud
    | close trigger => exact ih.close trigger

/-- The last waiting cloud is the one kept aside, or else the one in the slot. -/
theorem Holds.getLast?_waiting {s : Session} (h : Holds t s p) :
    p.waiting.getLast?.map Prod.snd
      = (s.collector.overflow.cloud? t).or (s.collector.current.cloud? t) := by
  have hheld : ((s.collector.held t).2.or (s.collector.held t).1)
      = (shown p.waiting).2.or (shown p.waiting).1 := by rw [h.held]
  exact (map_chosen .complete p.waiting).trans hheld.symm

end Pending

/-- Over every run, the slots of a collector are a list of waiting clouds for each of its topics:
they hold what the lists hold, and every close hands out the same clouds. Hence the clouds of a topic
are handed out in the order of their arrival and none twice, the latest one has been handed out or is
still held, and what a close hands out arrived after the close before the previous one. -/
theorem Session.run_refines (s : SyncSettings) (xs : List Collector.Call) :
    (∀ t cloud, ((run s xs).collector.arrive t cloud).isSome ↔ t ∈ s.inputTopics) ∧
    (∀ h ∈ (run s xs).handed, Keyed.keys h.2 = ascending s.inputTopics) ∧
    ∀ t ∈ s.inputTopics,
      Pending.Holds t (run s xs) (Pending.run t xs) ∧
      (Pending.run t xs).given.Pairwise (·.1 < ·.1) ∧
      (∀ q ∈ (Pending.run t xs).given, xs[q.1]? = some (.arrive t q.2)) ∧
      (∀ n cloud, Pending.Latest t xs n cloud →
        (n, cloud) ∈ (Pending.run t xs).given ∨
          (Pending.run t xs).waiting.getLast? = some (n, cloud) ∧
          ((run s xs).collector.overflow.cloud? t).or ((run s xs).collector.current.cloud? t)
            = some cloud) ∧
      (∀ i m o k q, (Pending.run t xs).handed[i]? = some (m, o) →
        (Pending.run t xs).handed[i + 2]? = some (k, some q) → m < q.1) := by
  refine ⟨fun t cloud => ?_, keys_handed s xs, fun t ht => ?_⟩
  · rw [← topics_run s xs]
    exact (sound_run s xs).arrive_isSome_iff
  · have hholds := holds_run s xs ht
    have htraced := Pending.traced_run t xs
    refine ⟨hholds, (List.pairwise_append.1 htraced.ordered).1, fun q hq => ?_, fun n c hl => ?_,
      htraced.aged⟩
    · exact htraced.arrived q (List.mem_append_left _ hq)
    · rcases htraced.latest n c hl with hgiven | hlast
      · exact Or.inl hgiven
      · refine Or.inr ⟨hlast, ?_⟩
        rw [← hholds.getLast?_waiting, hlast]
        rfl

/-- Two clouds of one topic before a timeout, and a third one before the next round is complete. -/
def Session.overlapping : List Collector.Call :=
  [.arrive "/left" (.ofPoints 0 "left" []), .arrive "/left" (.ofPoints 1 "left" []),
    .close .timeout, .arrive "/right" (.ofPoints 2 "right" []),
    .arrive "/left" (.ofPoints 2 "left" []), .close .complete]

/-- The second cloud fills the slot of the next round, where the third one takes its place. -/
theorem Session.run_refines_overlapping :
    "/left" ∈ ["/left", "/right"] ∧
    (Pending.run "/left" overlapping).given.map Prod.fst = [0, 4] ∧
    Pending.Holds "/left" (run .pair overlapping) (Pending.run "/left" overlapping) :=
  ⟨by decide, by rfl, ((run_refines _ overlapping).2.2 "/left" (by decide)).1⟩

end LidarSync
