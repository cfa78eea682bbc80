import Mathlib.Data.Set.Finite.Lattice
import LidarSync.Proofs.Motion.Walk

/-!
# What an integration covers

Each step of an integration stands for a span of time for which a report is taken to hold: from the
stamp of the report before it to its own stamp, the first one from the start of the interval on and the
last one up to its end. Where the stamps never go down, the spans of all steps tile the interval
(`History.tiles_spans`), so an integration that is not cut short takes just as long as the interval, and
one that is cut short covers the beginning of it. No step turns or moves the vehicle by more than its
length allows, whatever the heading reached before it, so neither does the integration
(`Tiles.yaw_le`, `Tiles.distance_le`).
-/

namespace LidarSync

/-! ## Spans -/

/-- The time for which an integration takes a report to hold. -/
structure Span where
  report : Velocity ℝ
  start : ℝ
  stop : ℝ

namespace Span

noncomputable def length (s : Span) : ℝ := s.stop - s.start

noncomputable def step (s : Span) : Step ℝ := (s.report, s.length)

end Span

/-- Spans of time that follow one another from an instant to another one without a gap or an overlap,
none of them backwards. -/
inductive Tiles : ℝ → List Span → ℝ → Prop where
  | nil (a : ℝ) : Tiles a [] a
  | cons {s : Span} {rest : List Span} {b : ℝ} (forward : s.start ≤ s.stop)
      (next : Tiles s.stop rest b) : Tiles s.start (s :: rest) b

namespace Tiles

variable {a b r : ℝ} {spans front back : List Span}

theorem le (htiles : Tiles a spans b) : a ≤ b := by
  induction htiles with
  | nil a => exact le_rfl
  | cons forward _ ih => exact forward.trans ih

theorem sum_length (htiles : Tiles a spans b) : (spans.map Span.length).sum = b - a := by
  induction htiles with
  | nil a => simp
  | cons _ _ ih =>
    rw [List.map_cons, List.sum_cons, ih, Span.length]
    ring

theorem length_nonneg (htiles : Tiles a spans b) : ∀ s ∈ spans, 0 ≤ s.length := by
  induction htiles with
  | nil a => exact nofun
  | cons forward _ ih => exact List.forall_mem_cons.2 ⟨sub_nonneg.2 forward, ih⟩

theorem split (htiles : Tiles a (front ++ back) b) : ∃ m, Tiles a front m ∧ Tiles m back b := by
  induction front generalizing a with
  | nil => exact ⟨a, .nil a, htiles⟩
  | cons s rest ih =>
    cases htiles with
    | cons forward next =>
      obtain ⟨m, hfront, hback⟩ := ih next
      exact ⟨m, .cons forward hfront, hback⟩

end Tiles

theorem exists_greatest {spans : List Span} (hne : spans ≠ []) (f : Span → ℝ) :
    ∃ s ∈ spans, ∀ t ∈ spans, f t ≤ f s :=
  Set.exists_max_image {s | s ∈ spans} f (List.finite_toSet spans)
    (List.exists_mem_of_ne_nil spans hne)

/-! ## Distances -/

namespace Drift

/-- How far a displacement leads. -/
noncomputable def distance (d : Drift ℝ) : ℝ := Real.sqrt (d.x ^ 2 + d.y ^ 2)

theorem distance_eq_norm (d : Drift ℝ) : d.distance = ‖(⟨d.x, d.y⟩ : ℂ)‖ := by
  rw [distance, Complex.norm_def, Complex.normSq_mk]
  congr 1
  ring

theorem distance_eq_shift (d : Drift ℝ) : d.distance
    = Real.sqrt (d.toPose.shift.x ^ 2 + d.toPose.shift.y ^ 2 + d.toPose.shift.z ^ 2) := by
  simp [distance, toPose_eq]

/-- Turning does not change a distance, so one displacement after another one leads no farther than
both together. -/
theorem distance_andThen_le (d e : Drift ℝ) : (d.andThen e).distance ≤ d.distance + e.distance := by
  have hplace : (⟨(d.andThen e).x, (d.andThen e).y⟩ : ℂ)
      = ⟨d.x, d.y⟩ + Complex.exp (d.yaw * Complex.I) * ⟨e.x, e.y⟩ := by
    apply Complex.ext
    · simp [andThen, Complex.exp_ofReal_mul_I_re, Complex.exp_ofReal_mul_I_im]
    · simp [andThen, Complex.exp_ofReal_mul_I_re, Complex.exp_ofReal_mul_I_im, add_comm]
  have hunit : ‖Complex.exp (d.yaw * Complex.I)‖ = 1 := Complex.norm_exp_ofReal_mul_I d.yaw
  rw [distance_eq_norm, distance_eq_norm, distance_eq_norm, hplace]
  refine (norm_add_le _ _).trans_eq ?_
  rw [norm_mul, hunit, one_mul]

theorem distance_advance (v : Velocity ℝ) (t : ℝ) :
    (none.advance v t).distance = |v.forward * t| := by
  have hcircle := Real.cos_sq_add_sin_sq (v.turnRate * t)
  rw [← Real.sqrt_sq_eq_abs, distance]
  congr 1
  simp only [advance_eq, none_eq, zero_add]
  linear_combination (v.forward * t) ^ 2 * hcircle

end Drift

namespace Tiles

variable {a b r : ℝ} {spans : List Span}

/-- The vehicle does not turn by more than the highest rate allows. -/
theorem yaw_le (htiles : Tiles a spans b) (hrate : ∀ s ∈ spans, |s.report.turnRate| ≤ r) :
    |(drive (spans.map Span.step)).yaw| ≤ r * (b - a) := by
  induction htiles with
  | nil a => simp [drive, Drift.none_eq]
  | @cons s rest b forward next ih =>
    obtain ⟨hfirst, hrest⟩ := List.forall_mem_cons.1 hrate
    have hlength : 0 ≤ s.length := sub_nonneg.2 forward
    have hyaw : (drive ((s :: rest).map Span.step)).yaw
        = s.report.turnRate * s.length + (drive (rest.map Span.step)).yaw := by
      rw [List.map_cons, drive_cons]
      simp [Drift.andThen, Drift.advance_eq, Drift.none_eq, Span.step]
    rw [hyaw]
    calc |s.report.turnRate * s.length + (drive (rest.map Span.step)).yaw|
        ≤ |s.report.turnRate * s.length| + |(drive (rest.map Span.step)).yaw| := abs_add_le _ _
      _ ≤ r * s.length + r * (b - s.stop) := by
          rw [abs_mul, abs_of_nonneg hlength]
          exact add_le_add (mul_le_mul_of_nonneg_right hfirst hlength) (ih hrest)
      _ = r * (b - s.start) := by
          rw [Span.length]
          ring

/-- The vehicle does not get farther than the highest speed allows. -/
theorem distance_le (htiles : Tiles a spans b) (hspeed : ∀ s ∈ spans, |s.report.forward| ≤ r) :
    (drive (spans.map Span.step)).distance ≤ r * (b - a) := by
  induction htiles with
  | nil a => simp [drive, Drift.none_eq, Drift.distance]
  | @cons s rest b forward next ih =>
    obtain ⟨hfirst, hrest⟩ := List.forall_mem_cons.1 hspeed
    have hlength : 0 ≤ s.length := sub_nonneg.2 forward
    rw [List.map_cons, drive_cons]
    calc ((Drift.none.advance s.report s.length).andThen (drive (rest.map Span.step))).distance
        ≤ (Drift.none.advance s.report s.length).distance
          + (drive (rest.map Span.step)).distance := Drift.distance_andThen_le _ _
      _ ≤ r * s.length + r * (b - s.stop) := by
          rw [Drift.distance_advance, abs_mul, abs_of_nonneg hlength]
          exact add_le_add (mul_le_mul_of_nonneg_right hfirst hlength) (ih hrest)
      _ = r * (b - s.start) := by
          rw [Span.length]
          ring

end Tiles

/-! ## The spans of an integration -/

section Spans

variable {stop start : ℝ} {vs : List (Velocity ℝ)}

/-- The spans of the steps that lead from an instant over the stamps of reports to `stop`. -/
noncomputable def spansTo (stop : ℝ) : ℝ → List (Velocity ℝ) → List Span
  | _, [] => []
  | start, v :: rest => ⟨v, start, horizon stop v rest⟩ :: spansTo stop v.stamp rest

theorem steps_eq_map_spansTo (stop start : ℝ) (vs : List (Velocity ℝ)) :
    steps stop start vs = (spansTo stop start vs).map Span.step := by
  induction vs generalizing start with
  | nil => rfl
  | cons v rest ih =>
    rw [steps_cons, ih]
    rfl

theorem map_report_spansTo (stop start : ℝ) (vs : List (Velocity ℝ)) :
    (spansTo stop start vs).map Span.report = vs := by
  induction vs generalizing start with
  | nil => rfl
  | cons v rest ih => rw [spansTo, List.map_cons, ih]

/-- Each span but the last one ends at the stamp of its report. -/
theorem stop_of_mem_dropLast_spansTo (stop start : ℝ) (vs : List (Velocity ℝ)) :
    ∀ s ∈ (spansTo stop start vs).dropLast, s.stop = s.report.stamp := by
  induction vs generalizing start with
  | nil => exact nofun
  | cons v rest ih =>
    cases rest with
    | nil => exact nofun
    | cons w rest =>
      rw [spansTo, List.dropLast_cons_of_ne_nil (by simp [spansTo])]
      have hown : horizon stop v (w :: rest) = v.stamp := if_neg (List.cons_ne_nil w rest)
      exact List.forall_mem_cons.2 ⟨hown, ih v.stamp⟩

/-- The spans tile the time up to `stop`, where the stamps on the way lie in between and never go
down. -/
theorem tiles_spansTo (hne : vs ≠ []) (hstart : start ≤ stop)
    (hsorted : vs.dropLast.Pairwise fun v w => v.stamp ≤ w.stamp)
    (hbetween : ∀ v ∈ vs.dropLast, start ≤ v.stamp ∧ v.stamp ≤ stop) :
    Tiles start (spansTo stop start vs) stop := by
  induction vs generalizing start with
  | nil => exact absurd rfl hne
  | cons v rest ih =>
    cases rest with
    | nil => exact .cons (s := ⟨v, start, stop⟩) hstart (.nil stop)
    | cons w rest =>
      rw [List.dropLast_cons_of_ne_nil (List.cons_ne_nil w rest)] at hsorted hbetween
      obtain ⟨hfirst, hrest⟩ := List.pairwise_cons.1 hsorted
      obtain ⟨⟨hlow, hhigh⟩, hlater⟩ := List.forall_mem_cons.1 hbetween
      refine .cons (s := ⟨v, start, v.stamp⟩) hlow ?_
      exact ih (List.cons_ne_nil w rest) hhigh hrest fun u hu => ⟨hfirst u hu, (hlater u hu).2⟩

end Spans

namespace History

variable {h : History ℝ} {a b : ℝ}

/-- The spans of the steps of an integration. -/
noncomputable def spans (h : History ℝ) (a b : ℝ) : List Span := spansTo b a ((h.query a b).getD [])

theorem walk_eq_map_spans (h : History ℝ) (a b : ℝ) : h.walk a b = (h.spans a b).map Span.step :=
  steps_eq_map_spansTo b a _

/-- The reports of an integration, but for the last one, lie within its interval. -/
theorem tiles_spans (hne : h.samples ≠ [])
    (hsorted : h.samples.Pairwise fun v w => v.stamp ≤ w.stamp) (hab : a ≤ b) :
    Tiles a (h.spans a b) b := by
  obtain ⟨before, run, after, hselected⟩ := exists_selected hne hab.not_gt (indexAt_le hab)
  have hrun : run.Pairwise fun v w => v.stamp ≤ w.stamp := by
    rw [hselected.whole, List.pairwise_append, List.pairwise_append] at hsorted
    exact hsorted.1.2.1
  unfold spans
  rw [hselected.answer, Option.getD_some]
  refine tiles_spansTo hselected.nonempty hab (hrun.sublist (List.dropLast_sublist run)) ?_
  intro v hv
  refine ⟨?_, (hselected.dropLast_older (older_split hsorted b) hv).le⟩
  by_contra hlt
  have holder := hselected.all_older (older_split hsorted a) (List.mem_of_mem_dropLast hv)
    (not_le.1 hlt)
  rw [holder.1] at hv
  exact absurd hv nofun

theorem spans_ne_nil (hne : h.samples ≠ []) (hab : a ≤ b) : h.spans a b ≠ [] := by
  obtain ⟨before, run, after, hselected⟩ := exists_selected hne hab.not_gt (indexAt_le hab)
  intro hnil
  apply hselected.nonempty
  rw [← map_report_spansTo b a run]
  unfold spans at hnil
  rw [hselected.answer, Option.getD_some] at hnil
  rw [hnil, List.map_nil]

/-! ## Integrations cut short -/

/-- The spans of the steps that an integration takes: those before the first too long one. -/
noncomputable def taken (h : History ℝ) (a b : ℝ) : List Span :=
  (h.spans a b).takeWhile fun s => fits s.step

theorem walked_eq_map_taken (h : History ℝ) (a b : ℝ) :
    walked (h.walk a b) = (h.taken a b).map Span.step := by
  unfold walked taken
  rw [walk_eq_map_spans, List.takeWhile_map]
  rfl

theorem truncated_iff_taken_ne (h : History ℝ) (a b : ℝ) :
    (h.motion a b).truncated = true ↔ h.taken a b ≠ h.spans a b := by
  have hinitial : h.taken a b <+: h.spans a b := List.takeWhile_prefix _
  unfold motion
  rw [walked_eq_map_taken, walk_eq_map_spans, List.length_map, List.length_map, decide_eq_true_iff]
  constructor
  · intro hlt heq
    exact hlt.ne (congrArg List.length heq)
  · intro hne
    exact lt_of_le_of_ne hinitial.length_le fun heq => hne (hinitial.eq_of_length heq)

/-- An integration is cut short exactly when one of its steps is too long. -/
theorem truncated_iff (htiles : Tiles a (h.spans a b) b) :
    (h.motion a b).truncated = true ↔ ∃ s ∈ h.spans a b, maxStep < s.length := by
  rw [truncated_iff_taken_ne, Ne, taken, List.takeWhile_eq_self_iff]
  push Not
  refine exists_congr fun s => and_congr_right fun hs => ?_
  rw [Span.step, Ne, fits_iff (htiles.length_nonneg s hs), not_le]

/-- The steps that an integration takes lead from the start of its interval to an instant on the way,
which is not the end where the integration is cut short. -/
theorem exists_tiles_taken (htiles : Tiles a (h.spans a b) b) :
    ∃ m, Tiles a (h.taken a b) m ∧ m ≤ b ∧ (m < b ↔ (h.motion a b).truncated = true) := by
  have hwhole : h.taken a b ++ (h.spans a b).dropWhile (fun s => fits s.step) = h.spans a b :=
    List.takeWhile_append_dropWhile
  have hnonneg := htiles.length_nonneg
  obtain ⟨m, htaken, hrest⟩ := (hwhole ▸ htiles).split
  refine ⟨m, htaken, hrest.le, ?_⟩
  rw [truncated_iff_taken_ne]
  cases hleft : (h.spans a b).dropWhile fun s => fits s.step with
  | nil =>
    rw [hleft] at hrest hwhole
    cases hrest
    exact iff_of_false (lt_irrefl _) (not_not_intro (by rw [← hwhole, List.append_nil]))
  | cons s rest =>
    rw [hleft] at hrest hwhole
    have hmem : s ∈ h.spans a b := by simp [← hwhole]
    have hlong : ¬ fits s.step = true := by
      have hhead := List.head?_dropWhile_not (fun s : Span => fits s.step) (h.spans a b)
      simpa [hleft] using hhead
    rw [Span.step, fits_iff (hnonneg s hmem), not_le, Span.length] at hlong
    cases hrest with
    | cons forward next =>
      have hlast := next.le
      have hpos : (0 : ℝ) < maxStep := by norm_num [maxStep_eq]
      refine iff_of_true (by linarith) fun heq => ?_
      rw [heq] at hwhole
      exact absurd (List.append_right_eq_self.1 hwhole) (List.cons_ne_nil s rest)

/-- An integration covers its interval up to an instant `m`: the spans of its steps, one for each report
that the query selects, tile the interval, and those of the steps that it takes before the first too
long one tile it up to `m`. -/
structure Covering (h : History ℝ) (a b : ℝ) (c : Correction ℝ) (m : ℝ) : Prop where
  reports : h.query a b = some ((h.spans a b).map Span.report)
  steps : h.walk a b = (h.spans a b).map Span.step
  tiles : Tiles a (h.spans a b) b
  /-- Each span but the last one ends at the stamp of its report. -/
  own : ∀ s ∈ (h.spans a b).dropLast, s.stop = s.report.stamp
  walks : walked (h.walk a b) = (h.taken a b).map Span.step
  initial : h.taken a b <+: h.spans a b
  partway : Tiles a (h.taken a b) m
  lengths : ((walked (h.walk a b)).map Prod.snd).sum = m - a
  pose : c.pose = (drive (walked (h.walk a b))).toPose
  uncut : c.truncated = false → h.taken a b = h.spans a b ∧ m = b
  cut : c.truncated = true → m < b
  truncated_iff : c.truncated = true ↔ ∃ s ∈ h.walk a b, maxStep < s.2

theorem exists_covering (hne : h.samples ≠ [])
    (hsorted : h.samples.Pairwise fun v w => v.stamp ≤ w.stamp) (hab : a ≤ b) :
    ∃ m ≤ b, h.Covering a b (h.motion a b) m := by
  have htiles := tiles_spans hne hsorted hab
  obtain ⟨m, htaken, hm, hcut⟩ := exists_tiles_taken htiles
  have hwalked := h.walked_eq_map_taken a b
  refine ⟨m, hm, ?_, h.walk_eq_map_spans a b, htiles, stop_of_mem_dropLast_spansTo b a _, hwalked,
    List.takeWhile_prefix _, htaken, ?_, rfl, fun hfalse => ?_, hcut.2, ?_⟩
  · rw [spans, map_report_spansTo, query_of_le hne hab, Option.getD_some]
  · rw [hwalked, List.map_map]
    exact htaken.sum_length
  · rw [← Bool.not_eq_true] at hfalse
    have hall : h.taken a b = h.spans a b := by
      rwa [truncated_iff_taken_ne, not_not] at hfalse
    rw [← hcut, not_lt] at hfalse
    exact ⟨hall, le_antisymm hm hfalse⟩
  · rw [truncated_iff htiles, walk_eq_map_spans]
    simp [Span.step]

/-- An integration covers its interval without a gap or an overlap, up to the end unless one of its
steps is too long. So the vehicle turns by no more than the highest rate among the reports that are
selected allows, and it gets no farther than the highest speed among them allows. -/
theorem compensate_covers (h : History ℝ) (hne : h.samples ≠ [])
    (hsorted : h.samples.Pairwise fun v w => v.stamp ≤ w.stamp) {a b : ℝ} (hab : a ≤ b) :
    ∃ c, ∃ m ≤ b, h.compensate a b = some c ∧ h.Covering a b c m ∧
      (∃ s ∈ h.spans a b, (∀ t ∈ h.spans a b, |t.report.turnRate| ≤ |s.report.turnRate|) ∧
        |(drive (walked (h.walk a b))).yaw| ≤ |s.report.turnRate| * (b - a)) ∧
      ∃ s ∈ h.spans a b, (∀ t ∈ h.spans a b, |t.report.forward| ≤ |s.report.forward|) ∧
        Real.sqrt (c.pose.shift.x ^ 2 + c.pose.shift.y ^ 2 + c.pose.shift.z ^ 2)
          ≤ |s.report.forward| * (b - a) := by
  obtain ⟨m, hm, hcovering⟩ := exists_covering hne hsorted hab
  have hspans := spans_ne_nil hne hab
  have hsubset := hcovering.initial.subset
  have hshort : m - a ≤ b - a := by linarith
  refine ⟨_, m, hm, h.compensate_eq a b, hcovering, ?_, ?_⟩
  · obtain ⟨s, hs, hgreatest⟩ := exists_greatest hspans fun s => |s.report.turnRate|
    refine ⟨s, hs, hgreatest, ?_⟩
    rw [hcovering.walks]
    exact (hcovering.partway.yaw_le fun t ht => hgreatest t (hsubset ht)).trans
      (mul_le_mul_of_nonneg_left hshort (abs_nonneg _))
  · obtain ⟨s, hs, hgreatest⟩ := exists_greatest hspans fun s => |s.report.forward|
    refine ⟨s, hs, hgreatest, ?_⟩
    rw [hcovering.pose, hcovering.walks, ← Drift.distance_eq_shift]
    exact (hcovering.partway.distance_le fun t ht => hgreatest t (hsubset ht)).trans
      (mul_le_mul_of_nonneg_left hshort (abs_nonneg _))

theorem compensate_covers_bend : ∃ c, bend.compensate (19 / 20) (21 / 20) = some c ∧
    bend.Covering (19 / 20) (21 / 20) c (21 / 20) ∧
    |(drive (walked (bend.walk (19 / 20) (21 / 20)))).yaw| ≤ 1 / 10 := by
  obtain ⟨c, m, -, hcompensate, hcovering, ⟨s, hs, -, hyaw⟩, -⟩ :=
    compensate_covers bend (by simp [bend]) sorted_bend (a := 19 / 20) (b := 21 / 20) (by norm_num)
  have huncut := compensate_of_fits fits_bend
  rw [hcompensate, Option.some.injEq] at huncut
  obtain ⟨-, rfl⟩ := hcovering.uncut (by rw [huncut])
  have hstep : s.step ∈ bend.walk (19 / 20) (21 / 20) := by
    rw [hcovering.steps]
    exact List.mem_map_of_mem hs
  have hrate : s.report.turnRate = 1 := by
    simp only [walk_bend, Span.step, List.mem_cons, Prod.mk.injEq, List.not_mem_nil,
      or_false] at hstep
    rcases hstep with ⟨hreport, -⟩ | ⟨hreport, -⟩
    · rw [hreport]
    · rw [hreport]
  rw [hrate, abs_one, one_mul] at hyaw
  exact ⟨c, hcompensate, hcovering, hyaw.trans (by norm_num)⟩

end History

end LidarSync
