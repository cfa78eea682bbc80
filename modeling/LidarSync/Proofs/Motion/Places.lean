import LidarSync.Motion.History
import LidarSync.Proofs.Motion.Bisection
import Mathlib.Data.List.TakeWhile

/-!
# Places in a history

A query takes the reports from one place to another (`History.query_of_indexAt_le`). Where the reports
that are older than an instant stand in front of the others, every way of searching finds the same
place for it (`History.found_eq_indexAt`): the reports in front of the place are older than the instant
(`History.stamp_lt_of_lt_indexAt`), and the one at the place is not, unless it is the last one
(`History.not_stamp_lt_indexAt`). This says of every report on which side of the selection it stands
(`History.exists_selected`). All of it holds for any kind of numbers.
-/

namespace LidarSync.History

variable {α : Type} [Scalar α] {h : History α} {start stop x : α}

/-! ## The place of an instant -/

/-- The place that a way of searching the history finds for a stamp. -/
def found (h : History α) (b : Bisection 0 h.samples.length) (stamp : α) : Nat :=
  min (b.find (h.isOlder stamp)) (h.samples.length - 1)

section Later

variable (hlater : ∀ stamp : α, stamp < start → stamp < stop)

include hlater

/-- Where what is older than one instant is older than another one, no search ends earlier for it. -/
theorem find_isOlder_mono (b : Bisection 0 h.samples.length) :
    b.find (h.isOlder start) ≤ b.find (h.isOlder stop) := by
  apply b.find_mono
  intro i hi
  obtain ⟨v, hv, hlt⟩ := (Option.any_eq_true _ _).1 hi
  exact (Option.any_eq_true _ _).2 ⟨v, hv, decide_eq_true (hlater _ (of_decide_eq_true hlt))⟩

theorem found_mono (b : Bisection 0 h.samples.length) : h.found b start ≤ h.found b stop := by
  have hfind := find_isOlder_mono hlater b
  unfold found
  omega

theorem olderThan_mono : h.olderThan start ≤ h.olderThan stop := find_isOlder_mono hlater _

theorem indexAt_mono : h.indexAt start ≤ h.indexAt stop :=
  found_mono hlater (h.halving h.resets h.samples)

end Later

theorem indexAt_lt (hne : h.samples ≠ []) (x : α) : h.indexAt x < h.samples.length := by
  have hlength := List.length_pos_iff.2 hne
  unfold indexAt
  omega

section Split

variable (hsplit : h.samples.Pairwise fun s t => t.stamp < x → s.stamp < x)

include hsplit

theorem find_isOlder (b : Bisection 0 h.samples.length) :
    b.find (h.isOlder x) = (h.samples.takeWhile fun s => s.stamp < x).length :=
  b.find_eq_length_takeWhile
    (hsplit.imp fun hst hlt => decide_eq_true (hst (of_decide_eq_true hlt)))

theorem olderThan_eq : h.olderThan x = (h.samples.takeWhile fun s => s.stamp < x).length :=
  find_isOlder hsplit _

theorem olderThan_eq_findIdx :
    h.olderThan x = h.samples.findIdx fun s => !decide (s.stamp < x) := by
  rw [olderThan_eq hsplit, List.takeWhile_eq_take_findIdx_not, List.length_take]
  exact Nat.min_eq_left List.findIdx_le_length

/-- In a history whose older reports stand in front, every way of searching finds the same place. -/
theorem found_eq_indexAt (b : Bisection 0 h.samples.length) : h.found b x = h.indexAt x := by
  unfold found indexAt
  rw [find_isOlder hsplit, olderThan_eq hsplit]

/-- The reports in front of the place of an instant are older than the instant. -/
theorem stamp_lt_of_lt_indexAt {i : Nat} (hi : i < h.samples.length) (hplace : i < h.indexAt x) :
    h.samples[i].stamp < x := by
  have holder : i < h.samples.findIdx fun s => !decide (s.stamp < x) := by
    rw [← olderThan_eq_findIdx hsplit]
    unfold indexAt at hplace
    omega
  simpa using List.not_of_lt_findIdx holder

/-- The report at the place of an instant is not older than the instant, unless it is the last. -/
theorem not_stamp_lt_indexAt {i : Nat} (hi : i + 1 < h.samples.length) (hplace : h.indexAt x = i) :
    ¬ h.samples[i].stamp < x := by
  have holder : (h.samples.findIdx fun s => !decide (s.stamp < x)) = i := by
    rw [← olderThan_eq_findIdx hsplit]
    unfold indexAt at hplace
    omega
  subst holder
  simpa using List.findIdx_getElem (p := fun s : Velocity α => !decide (s.stamp < x))
    (w := Nat.lt_of_succ_lt hi)

end Split

/-! ## Queries -/

theorem query_of_empty (hempty : h.samples = []) (start stop : α) :
    h.query start stop = some [] := if_pos (Or.inl (List.isEmpty_iff.2 hempty))

theorem query_of_lt (hback : stop < start) : h.query start stop = some [] := if_pos (Or.inr hback)

theorem query_of_indexAt_le (hne : h.samples ≠ []) (hforward : ¬ stop < start)
    (hplaces : h.indexAt start ≤ h.indexAt stop) : h.query start stop
      = some ((h.samples.drop (h.indexAt start)).take (h.indexAt stop + 1 - h.indexAt start)) := by
  have hsome : ¬ (h.samples.isEmpty ∨ stop < start) := by simp [hne, hforward]
  have hordered : ¬ h.indexAt stop + 1 < h.indexAt start := by omega
  unfold query
  rw [if_neg hsome]
  exact if_neg hordered

/-- The reports that a query selects, with those in front of them and behind them. -/
structure Selected (h : History α) (start stop : α) (before run after : List (Velocity α)) :
    Prop where
  whole : h.samples = before ++ run ++ after
  answer : h.query start stop = some run
  nonempty : run ≠ []
  first : before.length = h.indexAt start
  last : before.length + run.length = h.indexAt stop + 1

theorem exists_selected (hne : h.samples ≠ []) (hforward : ¬ stop < start)
    (hplaces : h.indexAt start ≤ h.indexAt stop) :
    ∃ before run after, h.Selected start stop before run after := by
  have hlast := indexAt_lt hne stop
  refine ⟨h.samples.take (h.indexAt start),
    (h.samples.drop (h.indexAt start)).take (h.indexAt stop + 1 - h.indexAt start),
    (h.samples.drop (h.indexAt start)).drop (h.indexAt stop + 1 - h.indexAt start), ?_,
    query_of_indexAt_le hne hforward hplaces, ?_, ?_, ?_⟩
  · rw [List.append_assoc, List.take_append_drop, List.take_append_drop]
  · intro hnil
    have hlength := congrArg List.length hnil
    simp only [List.length_take, List.length_drop, List.length_nil] at hlength
    omega
  · rw [List.length_take]
    omega
  · simp only [List.length_take, List.length_drop]
    omega

namespace Selected

variable {before run after : List (Velocity α)} (hselected : h.Selected start stop before run after)

include hselected

theorem before_older (hsplit : h.samples.Pairwise fun s t => t.stamp < start → s.stamp < start)
    {s : Velocity α} (hs : s ∈ before) : s.stamp < start := by
  obtain ⟨i, hi, rfl⟩ := List.getElem_of_mem hs
  have hfirst := hselected.first
  have hwhole : h.samples = before ++ (run ++ after) := by
    rw [hselected.whole, List.append_assoc]
  have hlength : i < h.samples.length := by
    rw [hwhole, List.length_append]
    omega
  have holder := stamp_lt_of_lt_indexAt hsplit hlength (hfirst ▸ hi)
  simpa only [hwhole, List.getElem_append_left hi] using holder

/-- All reports that are selected, but for the last one, are older than the end. -/
theorem dropLast_older (hsplit : h.samples.Pairwise fun s t => t.stamp < stop → s.stamp < stop)
    {s : Velocity α} (hs : s ∈ run.dropLast) : s.stamp < stop := by
  obtain ⟨i, hi, rfl⟩ := List.getElem_of_mem hs
  rw [List.length_dropLast] at hi
  have hlast := hselected.last
  have hrun : i < run.length := by omega
  have hwhole : h.samples = before ++ (run ++ after) := by
    rw [hselected.whole, List.append_assoc]
  have hlength : before.length + i < h.samples.length := by
    rw [hwhole, List.length_append, List.length_append]
    omega
  have holder := stamp_lt_of_lt_indexAt hsplit hlength (by omega)
  rw [List.getElem_dropLast]
  simpa only [hwhole, List.getElem_append_right (Nat.le_add_right _ _), Nat.add_sub_cancel_left,
    List.getElem_append_left hrun] using holder

/-- No report behind the selected ones is older than the end, where the older ones stand in front. -/
theorem after_not_older (hsplit : h.samples.Pairwise fun s t => t.stamp < stop → s.stamp < stop)
    {s : Velocity α} (hs : s ∈ after) : ¬ s.stamp < stop := by
  intro holder
  have hlast := hselected.last
  have hpos := List.length_pos_of_mem hs
  have hlength : h.indexAt stop + 1 < h.samples.length := by
    rw [hselected.whole, List.length_append, List.length_append]
    omega
  have hplace : h.samples[h.indexAt stop] ∈ before ++ run := by
    simp only [hselected.whole]
    rw [List.getElem_append_left (by rw [List.length_append]; omega)]
    exact List.getElem_mem _
  have hplaces := hsplit
  rw [hselected.whole, List.pairwise_append] at hplaces
  exact not_stamp_lt_indexAt hsplit hlength rfl (hplaces.2.2 _ hplace s hs holder)

/-- A selected report is older than the start only where all reports are, and then it is the last of
all. -/
theorem all_older (hsplit : h.samples.Pairwise fun s t => t.stamp < start → s.stamp < start)
    {s : Velocity α} (hs : s ∈ run) (holder : s.stamp < start) :
    run = [s] ∧ ∀ t ∈ h.samples, t.stamp < start := by
  have hfirst := hselected.first
  have hlast := hselected.last
  have hpos := List.length_pos_iff.2 hselected.nonempty
  have hwhole : h.samples.length = before.length + run.length + after.length := by
    rw [hselected.whole, List.length_append, List.length_append]
  have hend : h.indexAt start + 1 = h.samples.length := by
    by_contra hne
    have hinner : h.indexAt start + 1 < h.samples.length := by omega
    apply not_stamp_lt_indexAt hsplit hinner rfl
    obtain ⟨i, hi, rfl⟩ := List.getElem_of_mem hs
    have hplace : before.length + i < h.samples.length := by omega
    have hitem : h.samples[before.length + i] = run[i] := by
      simp only [hselected.whole]
      rw [List.getElem_append_left (by rw [List.length_append]; omega),
        List.getElem_append_right (Nat.le_add_right _ _)]
      simp only [Nat.add_sub_cancel_left]
    rw [← hitem] at holder
    rcases Nat.eq_zero_or_pos i with rfl | hlater
    · simpa only [Nat.add_zero, ← hfirst] using holder
    · exact List.pairwise_iff_getElem.1 hsplit _ _ _ _ (by omega) holder
  have hstop : h.indexAt stop + 1 ≤ h.samples.length := by omega
  obtain ⟨t, rfl⟩ := List.length_eq_one_iff.1 (show run.length = 1 by omega)
  obtain rfl := List.mem_singleton.1 hs
  have hnone : after = [] := List.length_eq_zero_iff.1 (by omega)
  refine ⟨rfl, ?_⟩
  simp only [hselected.whole, hnone, List.append_nil, List.forall_mem_append,
    List.forall_mem_singleton]
  exact ⟨fun t ht => hselected.before_older hsplit ht, holder⟩

end Selected

end LidarSync.History
