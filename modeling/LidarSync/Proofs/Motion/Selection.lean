import LidarSync.Proofs.Motion.Orderly

/-!
# What a query selects

In a history that is in order (`History.Ordered`), an instant is answered for by the first report that
is not older, or by the newest one where all reports are older (`History.answering`). A query from one
instant to another one has an answer, and it selects the run of the reports from the one that answers
for the first instant through the one that answers for the second (`History.query_selects`). That
leaves out no report between the two instants, adds one at most from the second one on, and adds one
from before the first one only where there is nothing newer (`History.Covers`).
-/

namespace LidarSync.History

open Decimal

variable {h : History Float} {start stop x : Float}

/-- The stamps are numbers, and they never go down. -/
structure Ordered (h : History Float) : Prop where
  numbers : ∀ s ∈ h.samples, s.stamp.isNaN = false
  ascending : h.samples.Pairwise fun s t => s.stamp ≤ t.stamp

/-- Of reports in order, the older ones stand in front. -/
theorem split_of_ascending {samples : List (Velocity Float)}
    (hascending : samples.Pairwise fun s t => s.stamp ≤ t.stamp) (hx : x.isNaN = false) :
    samples.Pairwise fun s t => t.stamp < x → s.stamp < x := by
  refine hascending.imp fun {s t} hle hlt => ?_
  have hsnum : s.stamp.isNaN = false := isNaN_of_le hle
  have htnum : t.stamp.isNaN = false := isNaN_of_ge hle
  rw [le_iff_place hsnum htnum] at hle
  rw [lt_iff_place htnum hx] at hlt
  rw [lt_iff_place hsnum hx]
  omega

theorem Ordered.split (hordered : h.Ordered) (hx : x.isNaN = false) :
    h.samples.Pairwise fun s t => t.stamp < x → s.stamp < x :=
  split_of_ascending hordered.ascending hx

/-- The place of the report that answers for an instant: the first one that is not older, and the
newest one where all are older. -/
def answering (h : History Float) (x : Float) : Nat :=
  (h.samples.findIdx? fun s => x ≤ s.stamp).getD (h.samples.length - 1)

theorem Ordered.indexAt_eq_answering (hordered : h.Ordered) (hx : x.isNaN = false) :
    h.indexAt x = h.answering x := by
  have hnot : ∀ s ∈ h.samples, (!decide (s.stamp < x)) = decide (x ≤ s.stamp) := by
    intro s hs
    rw [← decide_not, decide_eq_decide, not_lt_iff_le (hordered.numbers s hs) hx]
  unfold answering indexAt
  rw [olderThan_eq_findIdx (hordered.split hx)]
  cases hfind : h.samples.findIdx? fun s => decide (x ≤ s.stamp) with
  | none =>
    rw [List.findIdx?_eq_none_iff] at hfind
    have hall : (h.samples.findIdx fun s => !decide (s.stamp < x)) = h.samples.length := by
      rw [List.findIdx_eq_length]
      intro s hs
      rw [hnot s hs, hfind s hs]
    rw [hall, Option.getD_none]
    omega
  | some i =>
    obtain ⟨hi, hhere, hbefore⟩ := List.findIdx?_eq_some_iff_getElem.1 hfind
    have hplace : (h.samples.findIdx fun s => !decide (s.stamp < x)) = i := by
      rw [List.findIdx_eq hi]
      refine ⟨?_, fun j hj => ?_⟩
      · rw [hnot _ (List.getElem_mem hi), hhere]
      · rw [hnot _ (List.getElem_mem _), Bool.eq_false_iff]
        exact hbefore j hj
    rw [hplace, Option.getD_some]
    omega

/-- A run of reports is what an interval needs: it leads from the report that answers for the start
through the one that answers for the stop. -/
structure Covers (h : History Float) (start stop : Float) (before run after : List (Velocity Float)) :
    Prop where
  whole : h.samples = before ++ run ++ after
  first : before.length = h.answering start
  last : before.length + run.length = h.answering stop + 1
  /-- No report between the two instants is left out. -/
  inside : ∀ s ∈ before ++ after, ¬ (start ≤ s.stamp ∧ s.stamp < stop)
  /-- One report at most is from the stop on. -/
  beyond : (run.countP fun s => stop ≤ s.stamp) ≤ 1
  /-- A report from before the start is there only for want of newer ones. -/
  older : (∃ s ∈ run, s.stamp < start) → ∀ s ∈ h.samples, s.stamp < start

theorem Selected.covers {before run after : List (Velocity Float)} (hordered : h.Ordered)
    (hstart : start.isNaN = false) (hstop : stop.isNaN = false)
    (hselected : h.Selected start stop before run after) :
    h.Covers start stop before run after where
  whole := hselected.whole
  first := by rw [hselected.first, hordered.indexAt_eq_answering hstart]
  last := by rw [hselected.last, hordered.indexAt_eq_answering hstop]
  inside := by
    rintro s hs ⟨hnew, hold⟩
    have hnumber : s.stamp.isNaN = false := isNaN_of_lt hold
    rcases List.mem_append.1 hs with hs | hs
    · exact (not_lt_iff_le hnumber hstart).2 hnew (hselected.before_older (hordered.split hstart) hs)
    · exact hselected.after_not_older (hordered.split hstop) hs hold
  beyond := by
    have hnone : (run.dropLast.countP fun s => decide (stop ≤ s.stamp)) = 0 := by
      rw [List.countP_eq_zero]
      intro s hs hle
      have hold := hselected.dropLast_older (hordered.split hstop) hs
      exact (not_lt_iff_le (isNaN_of_lt hold) hstop).2 (of_decide_eq_true hle) hold
    rw [← List.dropLast_append_getLast hselected.nonempty, List.countP_append, hnone, Nat.zero_add]
    exact List.countP_le_length
  older := by
    rintro ⟨s, hs, hold⟩
    exact (hselected.all_older (hordered.split hstart) hs hold).2

/-- Without reports, or backwards in time, a query selects nothing. Otherwise, where the stamps are
numbers in order, it has an answer, which is not empty and what the interval needs; every way of halving
the history finds the two places between which it stands. -/
theorem query_selects (h : History Float) (start stop : Float) :
    (h.samples = [] ∨ stop < start → h.query start stop = some []) ∧
    (h.Ordered → h.samples ≠ [] → start ≤ stop → ∃ before run after,
      h.query start stop = some run ∧ run ≠ [] ∧ h.Covers start stop before run after ∧
      ∀ b : Bisection 0 h.samples.length,
        h.found b start = before.length ∧ h.found b stop + 1 = before.length + run.length) := by
  refine ⟨?_, fun hordered hne hle => ?_⟩
  · rintro (hempty | hback)
    · exact query_of_empty hempty start stop
    · exact query_of_lt hback
  · have hstart : start.isNaN = false := isNaN_of_le hle
    have hstop : stop.isNaN = false := isNaN_of_ge hle
    obtain ⟨before, run, after, hselected⟩ := exists_selected hne
      ((not_lt_iff_le hstop hstart).2 hle) (h.orderly_indexAt.mono start stop hstart hstop hle)
    refine ⟨before, run, after, hselected.answer, hselected.nonempty,
      hselected.covers hordered hstart hstop, fun b => ⟨?_, ?_⟩⟩
    · rw [found_eq_indexAt (hordered.split hstart), hselected.first]
    · rw [found_eq_indexAt (hordered.split hstop), hselected.last]

/-- A history in which stamps are repeated. -/
def repeated : History Float :=
  { samples := [⟨1, 0, 0, 0⟩, ⟨1, 1, 0, 0⟩, ⟨1.25, 2, 0, 0⟩, ⟨1.5, 3, 0, 0⟩, ⟨1.5, 4, 0, 0⟩,
      ⟨1.75, 5, 0, 0⟩] }

theorem query_selects_repeated : repeated.Ordered ∧ ∃ before run after,
    repeated.query 1.125 1.5 = some run ∧ run ≠ [] ∧
    repeated.Covers 1.125 1.5 before run after ∧ before.length = 2 ∧ run.length = 2 := by
  have hordered : repeated.Ordered := ⟨by decide +kernel, by decide +kernel⟩
  obtain ⟨before, run, after, hquery, hne, hcovers, -⟩ :=
    (query_selects repeated 1.125 1.5).2 hordered (by decide) (by decide +kernel)
  have hfirst : repeated.answering 1.125 = 2 := by decide +kernel
  have hlast : repeated.answering 1.5 = 3 := by decide +kernel
  have hbefore : before.length = 2 := hcovers.first.trans hfirst
  have hrun := hcovers.last
  exact ⟨hordered, before, run, after, hquery, hne, hcovers, hbefore, by omega⟩

end LidarSync.History
