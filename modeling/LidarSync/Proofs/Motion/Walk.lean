import LidarSync.Proofs.Motion.Exact
import LidarSync.Proofs.Motion.Places
import Mathlib.Tactic.Linarith

/-!
# Integrations in two parts

An integration walks through the reports that cover its interval, one step for each
(`History.walk`). Where the interval is cut, one report answers for the cut: the walk over the first
part ends with a step of it, the walk over the second part starts with another one, and the walk over
the whole takes both at once (`History.exists_isCut`). So the angles of the two parts add up
(`History.IsCut.yaw_drift`), and the motions do exactly when that step can be taken in two parts
(`History.IsCut.toPose_eq_iff`). It can where nothing is left of the report at the cut, so at the
stamp of any report but the last one: the last one holds for all the time that comes after it
(`History.IsCut.rest_eq_zero`).
-/

namespace LidarSync

/-! ## Steps -/

section Steps

variable {stop start : ℝ} {v : Velocity ℝ} {front back : List (Velocity ℝ)}

/-- The steps that lead over the stamps of reports. -/
def legs : ℝ → List (Velocity ℝ) → List (Step ℝ)
  | _, [] => []
  | start, v :: rest => (v, v.stamp - start) :: legs v.stamp rest

/-- The instant that is reached over the stamps of reports. -/
def reached : ℝ → List (Velocity ℝ) → ℝ
  | start, [] => start
  | _, v :: rest => reached v.stamp rest

/-- The steps over reports in front are those over their stamps. -/
theorem steps_append (stop start : ℝ) (front : List (Velocity ℝ)) (v : Velocity ℝ)
    (back : List (Velocity ℝ)) :
    steps stop start (front ++ v :: back)
      = legs start front ++ steps stop (reached start front) (v :: back) := by
  induction front generalizing start with
  | nil => rfl
  | cons w rest ih =>
    have hnext := ih w.stamp
    cases rest with
    | nil => rfl
    | cons u rest =>
      simp only [List.cons_append, steps, legs, reached] at hnext ⊢
      rw [hnext]

/-- How far the first of several reports holds. -/
def horizon (stop : ℝ) (v : Velocity ℝ) (back : List (Velocity ℝ)) : ℝ :=
  if back = [] then stop else v.stamp

theorem steps_cons (stop start : ℝ) (v : Velocity ℝ) (back : List (Velocity ℝ)) :
    steps stop start (v :: back) = (v, horizon stop v back - start) :: steps stop v.stamp back := by
  cases back with
  | nil => rfl
  | cons w rest => rfl

theorem reached_le (hstart : start ≤ stop) (hfront : ∀ w ∈ front, w.stamp ≤ stop) :
    reached start front ≤ stop := by
  induction front generalizing start with
  | nil => exact hstart
  | cons w rest ih =>
    exact ih (hfront w List.mem_cons_self) fun u hu => hfront u (List.mem_cons_of_mem w hu)

end Steps

namespace History

/-- The steps of an integration, those from the first too long one on included. -/
def walk {α : Type} [Scalar α] (h : History α) (start stop : α) : List (Step α) :=
  steps stop start ((h.query start stop).getD [])

/-- The displacement that an integration leads to. -/
def drift {α : Type} [Scalar α] (h : History α) (start stop : α) : Drift α :=
  drive (walked (h.walk start stop))

variable {h : History ℝ} {a b c : ℝ} {v : Velocity ℝ}

/-! ## Places -/

theorem indexAt_le (hab : a ≤ b) : h.indexAt a ≤ h.indexAt b :=
  indexAt_mono fun _ hlt => hlt.trans_le hab

theorem query_of_le (hne : h.samples ≠ []) (hab : a ≤ b) : h.query a b
    = some ((h.samples.drop (h.indexAt a)).take (h.indexAt b + 1 - h.indexAt a)) :=
  query_of_indexAt_le hne hab.not_gt (indexAt_le hab)

/-- Over the reals, every history answers for every interval. -/
noncomputable def motion (h : History ℝ) (start stop : ℝ) : Correction ℝ :=
  ⟨(h.drift start stop).toPose, (walked (h.walk start stop)).length < (h.walk start stop).length⟩

theorem compensate_eq (h : History ℝ) (a b : ℝ) : h.compensate a b = some (h.motion a b) := by
  unfold compensate motion drift walk
  split
  · next hnone =>
    have hquery : h.query a b = some [] := if_pos hnone
    rw [hquery]
    simp [steps, walked, drive]
  · next hsome =>
    simp only [List.isEmpty_iff, not_or, not_lt] at hsome
    rw [query_of_le hsome.1 hsome.2]
    rfl

/-- What is older than an instant stands in front of what is not, where the stamps never go down. -/
theorem older_split (hsorted : h.samples.Pairwise fun v w => v.stamp ≤ w.stamp) (b : ℝ) :
    h.samples.Pairwise fun v w => w.stamp < b → v.stamp < b :=
  hsorted.imp fun hle hlt => hle.trans_lt hlt

theorem le_stamp_indexAt (hsorted : h.samples.Pairwise fun v w => v.stamp ≤ w.stamp) {i : Nat}
    (hi : i + 1 < h.samples.length) (hplace : h.indexAt b = i) : b ≤ h.samples[i].stamp :=
  not_lt.1 (not_stamp_lt_indexAt (older_split hsorted b) hi hplace)

/-! ## Steps that fit -/

theorem maxStep_eq : (maxStep : ℝ) = 1 / 10 := by
  unfold maxStep
  rw [scientific_eq]
  norm_num

theorem fits_iff {s : ℝ} (hs : 0 ≤ s) : fits (v, s) = true ↔ s ≤ maxStep := by
  have hmagnitude : Scalar.magnitude s = s := if_neg hs.not_gt
  simp [fits, hmagnitude]

theorem drift_of_fits (hfits : ∀ x ∈ h.walk a b, fits x) : h.drift a b = drive (h.walk a b) := by
  unfold drift walked
  rw [List.takeWhile_eq_self_iff.2 hfits]

theorem compensate_of_fits (hfits : ∀ x ∈ h.walk a b, fits x) :
    h.compensate a b = some ⟨(h.drift a b).toPose, false⟩ := by
  rw [compensate_eq]
  unfold motion walked
  rw [List.takeWhile_eq_self_iff.2 hfits, decide_eq_false (lt_irrefl _)]

/-! ## Cuts -/

/-- Where an interval is cut, the report that answers for the cut is the last one of the first part
and the first one of the second part. -/
theorem query_cut (hsorted : h.samples.Pairwise fun v w => v.stamp ≤ w.stamp)
    (hne : h.samples ≠ []) (hab : a ≤ b) (hbc : b ≤ c) :
    ∃ front v back, h.samples[h.indexAt b]? = some v ∧
      h.query a b = some (front ++ [v]) ∧
      h.query b c = some (v :: back) ∧
      h.query a c = some (front ++ v :: back) ∧
      (∀ w ∈ front, w.stamp < b) ∧
      (back = [] ↔ h.indexAt c = h.indexAt b) := by
  have hfirst := indexAt_le (h := h) hab
  have hsecond := indexAt_le (h := h) hbc
  have hb := indexAt_lt hne b
  have hc := indexAt_lt hne c
  have hdrop := List.drop_eq_getElem_cons hb
  refine ⟨(h.samples.drop (h.indexAt a)).take (h.indexAt b - h.indexAt a), h.samples[h.indexAt b],
    (h.samples.drop (h.indexAt b + 1)).take (h.indexAt c - h.indexAt b),
    List.getElem?_eq_getElem hb, ?_, ?_, ?_, ?_, ?_⟩
  · have hplaces : h.indexAt b + 1 - h.indexAt a = h.indexAt b - h.indexAt a + 1 := by omega
    have hplace : h.indexAt a + (h.indexAt b - h.indexAt a) = h.indexAt b := by omega
    rw [query_of_le hne hab, hplaces, List.take_add, List.drop_drop, hplace, hdrop]
    rfl
  · have hplaces : h.indexAt c + 1 - h.indexAt b = h.indexAt c - h.indexAt b + 1 := by omega
    rw [query_of_le hne hbc, hplaces, hdrop, List.take_succ_cons]
  · have hplaces : h.indexAt c + 1 - h.indexAt a
        = h.indexAt b - h.indexAt a + (h.indexAt c - h.indexAt b + 1) := by omega
    have hplace : h.indexAt a + (h.indexAt b - h.indexAt a) = h.indexAt b := by omega
    rw [query_of_le hne (hab.trans hbc), hplaces, List.take_add, List.drop_drop, hplace, hdrop,
      List.take_succ_cons]
  · intro w hw
    obtain ⟨i, hi, rfl⟩ := List.getElem_of_mem hw
    rw [List.length_take, List.length_drop] at hi
    rw [List.getElem_take, List.getElem_drop]
    exact stamp_lt_of_lt_indexAt (older_split hsorted b) _ (by omega)
  · rw [List.take_eq_nil_iff, List.drop_eq_nil_iff]
    omega

/-- The stamp of a report that is not the last one. -/
def IsInnerStamp (h : History ℝ) (b : ℝ) : Prop :=
  ∃ i, ∃ hi : i + 1 < h.samples.length, h.samples[i].stamp = b

/-- Where an integration from `a` can be split: at the stamp of a report that is not the last one, and
where the last report walked up to there tells of no turning. -/
def SplitsAt (h : History ℝ) (a b : ℝ) : Prop :=
  h.IsInnerStamp b ∨ ∀ x ∈ (h.walk a b).getLast?, x.1.turnRate = 0

/-- An interval cut in two: the walk over the first part ends with a step `s` of a report `v`, the
walk over the second part starts with a step `t` of the same report, and the walk over the whole
takes both at once. -/
structure IsCut (h : History ℝ) (a b c : ℝ) (front : List (Step ℝ)) (v : Velocity ℝ) (s t : ℝ)
    (back : List (Step ℝ)) : Prop where
  first : h.walk a b = front ++ [(v, s)]
  second : h.walk b c = (v, t) :: back
  whole : h.walk a c = front ++ (v, s + t) :: back
  before : 0 ≤ s
  after : 0 ≤ t
  /-- The report holds up to its stamp, the last one of the interval up to the end. -/
  rest : h.samples[h.indexAt b]? = some v ∧
    t = (if h.indexAt c = h.indexAt b then c else v.stamp) - b

theorem exists_isCut (hsorted : h.samples.Pairwise fun v w => v.stamp ≤ w.stamp)
    (hne : h.samples ≠ []) (hab : a ≤ b) (hbc : b ≤ c) :
    ∃ front v s t back, h.IsCut a b c front v s t back := by
  obtain ⟨front, v, back, hv, hfirst, hsecond, hwhole, hfront, hback⟩ :=
    query_cut hsorted hne hab hbc
  refine ⟨legs a front, v, b - reached a front, horizon c v back - b, steps c v.stamp back,
    ?_, ?_, ?_, ?_, ?_, hv, ?_⟩
  · unfold walk
    rw [hfirst, Option.getD_some, steps_append]
    rfl
  · unfold walk
    rw [hsecond, Option.getD_some, steps_cons]
  · unfold walk
    rw [hwhole, Option.getD_some, steps_append, steps_cons]
    congr 3
    ring
  · have hreached := reached_le hab fun w hw => (hfront w hw).le
    linarith
  · unfold horizon
    split
    · linarith
    · next hmore =>
      have hplace : h.indexAt b < h.indexAt c :=
        lt_of_le_of_ne (indexAt_le hbc) fun heq => hmore (hback.2 heq.symm)
      have hc := indexAt_lt hne c
      have hlater := le_stamp_indexAt hsorted (b := b) (by omega) rfl
      rw [List.getElem?_eq_getElem (by omega), Option.some.injEq] at hv
      rw [hv] at hlater
      linarith
  · unfold horizon
    simp only [hback]

namespace IsCut

variable {front back : List (Step ℝ)} {s t : ℝ}

/-- Nothing is left of a report after its own stamp, unless it is the last one. -/
theorem rest_eq_zero (hcut : h.IsCut a b c front v s t back)
    (hsorted : h.samples.Pairwise fun v w => v.stamp ≤ w.stamp) (hbc : b ≤ c)
    (hstamp : b = c ∨ h.IsInnerStamp b) : t = 0 := by
  obtain ⟨hv, ht⟩ := hcut.rest
  rcases hstamp with rfl | ⟨i, hi, hstamp⟩
  · simpa using ht
  have hplace : h.indexAt b ≤ i := by
    by_contra hlater
    have hlt := stamp_lt_of_lt_indexAt (older_split hsorted b) (i := i) (by omega) (by omega)
    exact hlt.ne hstamp
  have hmoment : h.samples[h.indexAt b].stamp = b := by
    apply le_antisymm
    · calc h.samples[h.indexAt b].stamp ≤ h.samples[i].stamp := by
            rcases hplace.eq_or_lt with heq | hlt
            · simp [heq]
            · exact List.pairwise_iff_getElem.1 hsorted _ _ _ _ hlt
        _ = b := hstamp
    · exact le_stamp_indexAt hsorted (by omega) rfl
  rw [List.getElem?_eq_getElem (by omega), Option.some.injEq] at hv
  rw [hv] at hmoment
  rcases hbc.eq_or_lt with rfl | hlt
  · simpa using ht
  have hnext : h.indexAt c ≠ h.indexAt b := by
    intro heq
    have hlater := le_stamp_indexAt hsorted (b := c) (i := h.indexAt b) (by omega) heq
    rw [hv, hmoment] at hlater
    linarith
  rw [ht, if_neg hnext, hmoment, sub_self]

/-- Both parts fit where the whole does. -/
theorem fits_parts (hcut : h.IsCut a b c front v s t back) (hfits : ∀ x ∈ h.walk a c, fits x) :
    (∀ x ∈ h.walk a b, fits x) ∧ ∀ x ∈ h.walk b c, fits x := by
  have hs := hcut.before
  have ht := hcut.after
  simp only [hcut.whole, List.forall_mem_append, List.forall_mem_cons] at hfits
  obtain ⟨hfront, hboth, hback⟩ := hfits
  rw [fits_iff (by linarith)] at hboth
  simp only [hcut.first, hcut.second, List.forall_mem_append, List.forall_mem_cons]
  exact ⟨⟨hfront, (fits_iff hs).2 (by linarith), nofun⟩, (fits_iff ht).2 (by linarith), hback⟩

variable (hcut : h.IsCut a b c front v s t back) (hfits : ∀ x ∈ h.walk a c, fits x)

include hcut hfits

theorem drift_first : h.drift a b = (drive front).andThen (Drift.none.advance v s) := by
  rw [drift_of_fits (hcut.fits_parts hfits).1, hcut.first, drive_append]
  rfl

theorem drift_second : h.drift b c = (Drift.none.advance v t).andThen (drive back) := by
  rw [drift_of_fits (hcut.fits_parts hfits).2, hcut.second, drive_cons]

theorem drift_whole : h.drift a c
    = (drive front).andThen ((Drift.none.advance v (s + t)).andThen (drive back)) := by
  rw [drift_of_fits hfits, hcut.whole, drive_append, drive_cons]

theorem yaw_drift : (h.drift a c).yaw = (h.drift a b).yaw + (h.drift b c).yaw := by
  rw [hcut.drift_first hfits, hcut.drift_second hfits, hcut.drift_whole hfits]
  simp only [Drift.andThen, Drift.advance_eq, Drift.none_eq]
  ring

/-- The two parts, one after the other, lead to where the whole leads exactly when nothing is driven
from the report before the cut to the cut, or full circles are turned after it. -/
theorem drift_eq_iff : h.drift a c = (h.drift a b).andThen (h.drift b c) ↔
    v.forward * s = 0 ∨ Real.cos (v.turnRate * t) = 1 := by
  have htwo : (Drift.none.advance v s).andThen (Drift.none.advance v t)
      = (Drift.none.advance v s).advance v t := by
    rw [← Drift.advance_andThen, Drift.andThen_none]
  have hyaw : (Drift.none.advance v (s + t)).yaw
      = ((Drift.none.advance v s).advance v t).yaw := by
    simp only [Drift.advance_eq]
    ring
  rw [hcut.drift_first hfits, hcut.drift_second hfits, hcut.drift_whole hfits,
    Drift.andThen_assoc, Drift.andThen_left_inj, ← Drift.andThen_assoc, htwo,
    Drift.andThen_right_inj hyaw, eq_comm, Drift.advance_advance_eq_iff]

theorem toPose_eq_iff : (h.drift a c).toPose = (h.drift a b).toPose * (h.drift b c).toPose ↔
    v.forward * s = 0 ∨ Real.cos (v.turnRate * t) = 1 := by
  rw [← hcut.drift_eq_iff hfits, ← Drift.toPose_andThen]
  exact Drift.toPose_inj (hcut.yaw_drift hfits)

end IsCut

/-! ## Splitting -/

/-- Without reports there are no steps. -/
theorem walk_of_empty (hempty : h.samples = []) (a b : ℝ) : h.walk a b = [] := by
  unfold walk
  rw [query_of_empty hempty]
  rfl

theorem drift_of_empty (hempty : h.samples = []) (a b : ℝ) : h.drift a b = Drift.none := by
  unfold drift
  rw [walk_of_empty hempty]
  rfl

theorem walk_self (hne : h.samples ≠ []) (a : ℝ) : ∃ v, h.walk a a = [(v, 0)] := by
  have hplace := indexAt_lt hne a
  have hone : h.indexAt a + 1 - h.indexAt a = 1 := by omega
  refine ⟨h.samples[h.indexAt a], ?_⟩
  unfold walk
  rw [query_of_le hne le_rfl, hone, List.drop_eq_getElem_cons hplace, List.take_succ_cons,
    List.take_zero, Option.getD_some, steps, sub_self]

theorem fits_self (h : History ℝ) (a : ℝ) : ∀ x ∈ h.walk a a, fits x := by
  by_cases hempty : h.samples = []
  · simp [walk_of_empty hempty]
  · obtain ⟨v, hv⟩ := walk_self hempty a
    rw [hv, List.forall_mem_singleton, fits_iff le_rfl]
    norm_num [maxStep_eq]

@[simp] theorem drift_self (h : History ℝ) (a : ℝ) : h.drift a a = Drift.none := by
  by_cases hempty : h.samples = []
  · exact drift_of_empty hempty a a
  · obtain ⟨v, hv⟩ := walk_self hempty a
    rw [drift_of_fits (h.fits_self a), hv]
    simp [drive, Drift.advance_eq, Drift.none_eq]

/-- In no time there is no motion. -/
theorem compensate_self (h : History ℝ) (a : ℝ) :
    h.compensate a a = some ⟨Pose.identity, false⟩ := by
  rw [compensate_of_fits (h.fits_self a), drift_self, Drift.toPose_none]

section Split

variable (hsorted : h.samples.Pairwise fun v w => v.stamp ≤ w.stamp) (hab : a ≤ b) (hbc : b ≤ c)
  (hfits : ∀ x ∈ h.walk a c, fits x)

include hsorted hab hbc hfits

theorem fits_split : (∀ x ∈ h.walk a b, fits x) ∧ ∀ x ∈ h.walk b c, fits x := by
  by_cases hempty : h.samples = []
  · simp [walk_of_empty hempty]
  · obtain ⟨front, v, s, t, back, hcut⟩ := exists_isCut hsorted hempty hab hbc
    exact hcut.fits_parts hfits

theorem yaw_split : (h.drift a c).yaw = (h.drift a b).yaw + (h.drift b c).yaw := by
  by_cases hempty : h.samples = []
  · simp [drift_of_empty hempty, Drift.none_eq]
  · obtain ⟨front, v, s, t, back, hcut⟩ := exists_isCut hsorted hempty hab hbc
    exact hcut.yaw_drift hfits

theorem drift_split (hsplits : b = c ∨ h.SplitsAt a b) :
    h.drift a c = (h.drift a b).andThen (h.drift b c) := by
  by_cases hempty : h.samples = []
  · simp [drift_of_empty hempty]
  obtain ⟨front, v, s, t, back, hcut⟩ := exists_isCut hsorted hempty hab hbc
  rw [hcut.drift_eq_iff hfits]
  right
  rcases hsplits with hend | hstamp | hstraight
  · simp [hcut.rest_eq_zero hsorted hbc (Or.inl hend)]
  · simp [hcut.rest_eq_zero hsorted hbc (Or.inr hstamp)]
  · have hzero : v.turnRate = 0 := hstraight (v, s) (by simp [hcut.first])
    simp [hzero]

end Split

/-- An integration that is not cut short can be taken in two parts: neither of them is cut short, the
angles add up, and where the integration splits the motions do. In no time there is no motion. -/
theorem compensate_split (h : History ℝ)
    (hsorted : h.samples.Pairwise fun v w => v.stamp ≤ w.stamp) {a b c : ℝ} (hab : a ≤ b)
    (hbc : b ≤ c) (hfits : ∀ x ∈ h.walk a c, fits x) :
    h.compensate a c = some ⟨(h.drift a c).toPose, false⟩ ∧
    h.compensate a b = some ⟨(h.drift a b).toPose, false⟩ ∧
    h.compensate b c = some ⟨(h.drift b c).toPose, false⟩ ∧
    (h.drift a c).yaw = (h.drift a b).yaw + (h.drift b c).yaw ∧
    (b = c ∨ h.SplitsAt a b →
      (h.drift a c).toPose = (h.drift a b).toPose * (h.drift b c).toPose) ∧
    ∀ t, h.compensate t t = some ⟨Pose.identity, false⟩ := by
  obtain ⟨hfirst, hsecond⟩ := fits_split hsorted hab hbc hfits
  refine ⟨compensate_of_fits hfits, compensate_of_fits hfirst, compensate_of_fits hsecond,
    yaw_split hsorted hab hbc hfits, ?_, h.compensate_self⟩
  intro hsplits
  rw [drift_split hsorted hab hbc hfits hsplits, Drift.toPose_andThen]

/-- Two reports, one twentieth of a second apart, of a vehicle in a bend. -/
noncomputable def bend : History ℝ := { samples := [⟨1, 10, 0, 1⟩, ⟨21 / 20, 10, 0, 1⟩] }

theorem sorted_bend : bend.samples.Pairwise fun v w => v.stamp ≤ w.stamp := by
  norm_num [bend]

theorem walk_bend : bend.walk (19 / 20) (21 / 20)
    = [(⟨1, 10, 0, 1⟩, 1 - 19 / 20), (⟨21 / 20, 10, 0, 1⟩, 21 / 20 - 1)] := by
  have hfirst : bend.indexAt (19 / 20) = 0 := by
    rw [indexAt, olderThan_eq (older_split sorted_bend _)]
    norm_num [bend]
  have hlast : bend.indexAt (21 / 20) = 1 := by
    rw [indexAt, olderThan_eq (older_split sorted_bend _)]
    norm_num [bend]
  unfold walk
  rw [query_of_le (by simp [bend]) (by norm_num), hfirst, hlast]
  simp [bend, steps]

theorem fits_bend : ∀ x ∈ bend.walk (19 / 20) (21 / 20), fits x := by
  simp only [walk_bend, List.forall_mem_cons]
  refine ⟨(fits_iff (by norm_num)).2 ?_, (fits_iff (by norm_num)).2 ?_, nofun⟩
  · norm_num [maxStep_eq]
  · norm_num [maxStep_eq]

theorem isInnerStamp_bend : bend.IsInnerStamp 1 := ⟨0, Nat.one_lt_two, rfl⟩

theorem compensate_split_bend : ∃ p q : Pose ℝ, bend.compensate (19 / 20) 1 = some ⟨p, false⟩ ∧
    bend.compensate 1 (21 / 20) = some ⟨q, false⟩ ∧
    bend.compensate (19 / 20) (21 / 20) = some ⟨p * q, false⟩ := by
  obtain ⟨hwhole, hfirst, hsecond, -, hsplit, -⟩ :=
    compensate_split bend sorted_bend (b := 1) (by norm_num) (by norm_num) fits_bend
  rw [hsplit (Or.inr (Or.inl isInnerStamp_bend))] at hwhole
  exact ⟨_, _, hfirst, hsecond, hwhole⟩

/-- One report of a vehicle in a bend. -/
noncomputable def lone : History ℝ := { samples := [⟨1, 10, 0, 1⟩] }

theorem indexAt_lone (a : ℝ) : lone.indexAt a = 0 := Nat.min_zero _

theorem walk_lone {a b : ℝ} (hab : a ≤ b) : lone.walk a b = [(⟨1, 10, 0, 1⟩, b - a)] := by
  unfold walk
  rw [query_of_le (by simp [lone]) hab, indexAt_lone, indexAt_lone]
  rfl

theorem fits_lone {a b : ℝ} (hab : a ≤ b) (hshort : b - a ≤ 1 / 10) :
    ∀ x ∈ lone.walk a b, fits x := by
  rw [walk_lone hab, List.forall_mem_singleton, fits_iff (by linarith), maxStep_eq]
  exact hshort

theorem isCut_lone {a b c : ℝ} (hab : a ≤ b) (hbc : b ≤ c) :
    lone.IsCut a b c [] ⟨1, 10, 0, 1⟩ (b - a) (c - b) [] where
  first := walk_lone hab
  second := walk_lone hbc
  whole := by
    rw [walk_lone (hab.trans hbc), add_comm, sub_add_sub_cancel]
    rfl
  before := sub_nonneg.2 hab
  after := sub_nonneg.2 hbc
  rest := by
    rw [indexAt_lone, indexAt_lone, if_pos rfl]
    exact ⟨rfl, rfl⟩

/-- Beyond the last report, the stamp of that report does not split an integration. -/
theorem toPose_lone_ne : (lone.drift (31 / 32) (33 / 32)).toPose
    ≠ (lone.drift (31 / 32) 1).toPose * (lone.drift 1 (33 / 32)).toPose := by
  have hcut := isCut_lone (a := 31 / 32) (b := 1) (c := 33 / 32) (by norm_num) (by norm_num)
  rw [Ne, hcut.toPose_eq_iff (fits_lone (by norm_num) (by norm_num)), not_or]
  constructor
  · norm_num
  · have hcircle := Real.two_le_pi
    rw [Real.cos_eq_one_iff_of_lt_of_lt (by linarith) (by linarith)]
    norm_num

theorem compensate_split_fails_at_newest : ∃ p q r : Pose ℝ,
    (lone.samples.Pairwise fun v w => v.stamp ≤ w.stamp) ∧
    (∀ x ∈ lone.walk (31 / 32) (33 / 32), fits x) ∧ (∃ v ∈ lone.samples, v.stamp = 1) ∧
    lone.compensate (31 / 32) (33 / 32) = some ⟨p, false⟩ ∧
    lone.compensate (31 / 32) 1 = some ⟨q, false⟩ ∧
    lone.compensate 1 (33 / 32) = some ⟨r, false⟩ ∧ p ≠ q * r :=
  ⟨_, _, _, List.pairwise_singleton _ _, fits_lone (by norm_num) (by norm_num),
    ⟨_, List.mem_singleton_self _, rfl⟩,
    compensate_of_fits (fits_lone (by norm_num) (by norm_num)),
    compensate_of_fits (fits_lone (by norm_num) (by norm_num)),
    compensate_of_fits (fits_lone (by norm_num) (by norm_num)), toPose_lone_ne⟩

end History

end LidarSync
