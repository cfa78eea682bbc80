import Mathlib.Algebra.BigOperators.Group.List.Lemmas
import Mathlib.Algebra.Order.BigOperators.Group.List
import Mathlib.Algebra.Order.Field.Basic
import Mathlib.Data.List.ReduceOption
import Mathlib.Data.Rat.Cast.Order
import Mathlib.Tactic.LinearCombination
import Mathlib.Tactic.NormNum
import Mathlib.Tactic.Ring
import LidarSync.Metrics.RunningStats

/-!
# Running statistics are those of the whole list

Without rounding, in any ordered field (`Scalar.ofField`), the statistics that are updated one reading
at a time are those of the list of all readings that are numbers, taken at once
(`RunningStats.ofReadings_eq`). The sum of squares about any point is known from the plain sums
(`squaresAbout_eq`), so it can be moved from the old mean to the new one (`RunningStats.push_batch`).
What is taken of the whole list does not depend on its order (`RunningStats.batch_perm`).
-/

namespace LidarSync

namespace Scalar

/-- Functions in place of those that an ordered field need not have. -/
structure StandIns (α : Type) where
  sqrt : α → α
  sin : α → α
  cos : α → α
  asin : α → α
  atan2 : α → α → α

variable {α : Type} [Field α] [LinearOrder α]

/-- Exact arithmetic in an ordered field. -/
abbrev ofField (f : StandIns α) : Scalar α where
  decidableLt := inferInstance
  decidableLe := inferInstance
  equal a b := decide (a = b)
  upTo a b := decide (a ≤ b)
  ofNat n := n
  sqrt := f.sqrt
  sin := f.sin
  cos := f.cos
  asin := f.asin
  atan2 := f.atan2

theorem least_eq (f : StandIns α) (a b : α) : @least α (ofField f) a b = min a b := by
  unfold least
  rw [if_pos (le_refl a), min_def]
  split
  · next h => rw [if_neg (not_le.2 h)]
  · next h => rw [if_pos (not_lt.1 h)]

theorem greatest_eq (f : StandIns α) (a b : α) : @greatest α (ofField f) a b = max a b := by
  unfold greatest
  rw [if_pos (le_refl a), max_def]
  split
  · next h => rw [if_pos h.le]
  · next h =>
    split
    · next hle => exact le_antisymm hle (not_lt.1 h)
    · rfl

end Scalar

/-! ## Sums and squares -/

section Squares

variable {α : Type} [Field α] {vs : List α} {x old new : α}

/-- The sum of the squared distances from a point. -/
def squaresAbout (c : α) (vs : List α) : α := (vs.map fun v => (v - c) ^ 2).sum

theorem squaresAbout_concat (c : α) (vs : List α) (x : α) :
    squaresAbout c (vs ++ [x]) = squaresAbout c vs + (x - c) ^ 2 := by
  unfold squaresAbout
  rw [List.map_append, List.sum_append, List.map_singleton, List.sum_singleton]

/-- From one point to another, a sum of squares changes by what the plain sum tells. -/
theorem squaresAbout_eq (c d : α) (vs : List α) : squaresAbout d vs
    = squaresAbout c vs - 2 * (d - c) * vs.sum + vs.length * (d ^ 2 - c ^ 2) := by
  unfold squaresAbout
  induction vs with
  | nil => simp
  | cons v vs ih =>
    rw [List.map_cons, List.map_cons, List.sum_cons, List.sum_cons, List.sum_cons, ih,
      List.length_cons, Nat.cast_succ]
    ring

/-- The mean of a list of numbers; that of none is zero. -/
def meanOf (vs : List α) : α := vs.sum / vs.length

variable [CharZero α]

/-- The sum is the mean, as often as there are numbers. -/
theorem sum_eq_length_mul (vs : List α) : vs.sum = vs.length * meanOf vs := by
  unfold meanOf
  cases vs with
  | nil => simp
  | cons v vs => rw [mul_div_cancel₀ _ (Nat.cast_ne_zero.2 (Nat.succ_ne_zero _))]

/-- The distances of the new mean from the old one, taken together, are that of one more number from
the new mean. -/
theorem length_mul_meanOf_concat (vs : List α) (x : α) :
    vs.length * (meanOf (vs ++ [x]) - meanOf vs) = x - meanOf (vs ++ [x]) := by
  have hold := sum_eq_length_mul vs
  have hnew := sum_eq_length_mul (vs ++ [x])
  rw [List.sum_append, List.sum_singleton, List.length_append, List.length_singleton,
    Nat.cast_add, Nat.cast_one] at hnew
  linear_combination hold - hnew

/-- The mean moves towards one more number by its share of the distance. -/
theorem meanOf_concat (vs : List α) (x : α) : meanOf (vs ++ [x])
    = meanOf vs + (x - meanOf vs) / ((vs.length + 1 : ℕ) : α) := by
  have hcount : ((vs.length + 1 : ℕ) : α) ≠ 0 := Nat.cast_ne_zero.2 (Nat.succ_ne_zero _)
  have hmoved := length_mul_meanOf_concat vs x
  rw [← sub_eq_iff_eq_add', eq_div_iff hcount, Nat.cast_succ]
  linear_combination hmoved

/-- The sum of the squared deviations grows by the product of the distances of one more number from
the old mean and from the new one. -/
theorem squaresAbout_meanOf_concat (vs : List α) (x : α) :
    squaresAbout (meanOf (vs ++ [x])) (vs ++ [x])
      = squaresAbout (meanOf vs) vs + (x - meanOf vs) * (x - meanOf (vs ++ [x])) := by
  have hsum := sum_eq_length_mul vs
  have hmoved := length_mul_meanOf_concat vs x
  generalize meanOf (vs ++ [x]) = new at hmoved ⊢
  generalize meanOf vs = old at hsum hmoved ⊢
  calc squaresAbout new (vs ++ [x])
    _ = squaresAbout new vs + (x - new) ^ 2 := squaresAbout_concat new vs x
    _ = squaresAbout old vs - 2 * (new - old) * vs.sum + vs.length * (new ^ 2 - old ^ 2)
        + (x - new) ^ 2 := by rw [squaresAbout_eq old new vs]
    _ = squaresAbout old vs + vs.length * (new - old) * (new - old) + (x - new) ^ 2 := by
      rw [hsum]
      ring
    _ = squaresAbout old vs + (x - old) * (x - new) := by
      rw [hmoved]
      ring

end Squares

/-! ## Extremes -/

section Extremes

variable {α : Type} [LinearOrder α] [Zero α]

theorem min?_concat (vs : List α) (x : α) :
    (vs ++ [x]).min?.getD 0 = if vs.length = 0 then x else min (vs.min?.getD 0) x := by
  cases vs with
  | nil => rfl
  | cons v vs =>
    have hcount : (v :: vs).length ≠ 0 := Nat.succ_ne_zero _
    rw [if_neg hcount, List.cons_append, List.min?_cons', List.min?_cons', List.foldl_append]
    rfl

theorem max?_concat (vs : List α) (x : α) :
    (vs ++ [x]).max?.getD 0 = if vs.length = 0 then x else max (vs.max?.getD 0) x := by
  cases vs with
  | nil => rfl
  | cons v vs =>
    have hcount : (v :: vs).length ≠ 0 := Nat.succ_ne_zero _
    rw [if_neg hcount, List.cons_append, List.max?_cons', List.max?_cons', List.foldl_append]
    rfl

end Extremes

/-! ## Statistics -/

namespace RunningStats

variable {α : Type} [Field α] [LinearOrder α]

/-- The statistics of a list of numbers, taken all at once. -/
def batch (vs : List α) : RunningStats α where
  count := vs.length
  mean := meanOf vs
  m2 := squaresAbout (meanOf vs) vs
  min := vs.min?.getD 0
  max := vs.max?.getD 0

theorem batch_nil : batch ([] : List α) = ⟨0, 0, 0, 0, 0⟩ := by
  unfold batch meanOf squaresAbout
  simp

variable [IsStrictOrderedRing α]

/-- One more number, taken in by itself, is one more number of the list. -/
theorem push_batch (f : Scalar.StandIns α) (vs : List α) (x : α) :
    @push α (.ofField f) (batch vs) x = batch (vs ++ [x]) := by
  unfold push batch
  rw [Scalar.least_eq, Scalar.greatest_eq, min?_concat, max?_concat, squaresAbout_meanOf_concat,
    meanOf_concat, List.length_append, List.length_singleton]
  rfl

theorem observe_batch (f : Scalar.StandIns α) (vs : List α) (x : Option α) :
    @observe α (.ofField f) (batch vs) x = batch (vs ++ x.toList) := by
  cases x with
  | none => rw [Option.toList_none, List.append_nil]; rfl
  | some x => exact push_batch f vs x

/-- Readings taken in one at a time are the list of those that are numbers, taken at once. -/
theorem ofReadings_eq (f : Scalar.StandIns α) (xs : List (Option α)) :
    @ofReadings α (.ofField f) xs = batch xs.reduceOption := by
  unfold ofReadings
  induction xs using List.reverseRecOn with
  | nil => exact batch_nil.symm
  | append_singleton xs x ih =>
    rw [List.foldl_append, List.foldl_cons, List.foldl_nil, ih, observe_batch,
      List.reduceOption_append, List.reduceOption_singleton]

omit [IsStrictOrderedRing α] in
/-- Statistics that are taken at once do not depend on the order of the numbers. -/
theorem batch_perm {vs ws : List α} (h : vs.Perm ws) : batch vs = batch ws := by
  have hmean : meanOf vs = meanOf ws := by
    unfold meanOf
    rw [h.sum_eq, h.length_eq]
  have hsquares (c : α) : squaresAbout c vs = squaresAbout c ws := (h.map _).sum_eq
  have hmin : vs.min? = ws.min? := by
    refine Option.ext fun a => ?_
    simp only [List.min?_eq_some_iff, h.mem_iff]
  have hmax : vs.max? = ws.max? := by
    refine Option.ext fun a => ?_
    simp only [List.max?_eq_some_iff, h.mem_iff]
  unfold batch
  rw [h.length_eq, hmean, hsquares, hmin, hmax]

omit [IsStrictOrderedRing α] in
theorem variance_batch (f : Scalar.StandIns α) (vs : List α) :
    @variance α (.ofField f) (batch vs)
      = if vs.length < 2 then 0 else squaresAbout (meanOf vs) vs / (vs.length - 1) := by
  have hcount : (batch vs).count = vs.length := rfl
  unfold variance
  rw [hcount]
  by_cases hfew : vs.length < 2
  · rw [if_pos hfew, if_pos (Nat.le_of_lt_succ hfew)]
  · have hothers : ((vs.length - 1 : ℕ) : α) = vs.length - 1 := by
      rw [Nat.cast_sub (by omega), Nat.cast_one]
    rw [if_neg hfew, if_neg (fun hle => hfew (Nat.lt_succ_of_le hle)), ← hothers]
    rfl

theorem variance_batch_nonneg (f : Scalar.StandIns α) (vs : List α) :
    0 ≤ @variance α (.ofField f) (batch vs) := by
  rw [variance_batch]
  split
  · exact le_rfl
  · next hmany =>
    have hsquares : 0 ≤ squaresAbout (meanOf vs) vs := by
      refine List.sum_nonneg fun y hy => ?_
      obtain ⟨v, -, rfl⟩ := List.mem_map.1 hy
      exact sq_nonneg _
    have hcount : (1 : α) ≤ vs.length := by
      exact_mod_cast (by omega : 1 ≤ vs.length)
    exact div_nonneg hsquares (sub_nonneg.2 hcount)

omit [IsStrictOrderedRing α] in
/-- The extremes of some numbers are among them, and none lies beyond. -/
theorem extremes_batch {vs : List α} (h : vs ≠ []) :
    (batch vs).min ∈ vs ∧ (batch vs).max ∈ vs ∧
      ∀ v ∈ vs, (batch vs).min ≤ v ∧ v ≤ (batch vs).max := by
  obtain ⟨least, hleast⟩ := Option.isSome_iff_exists.1 (List.isSome_min?_iff.2 h)
  obtain ⟨greatest, hgreatest⟩ := Option.isSome_iff_exists.1 (List.isSome_max?_iff.2 h)
  have hmin : (batch vs).min = least := by rw [batch, hleast, Option.getD_some]
  have hmax : (batch vs).max = greatest := by rw [batch, hgreatest, Option.getD_some]
  obtain ⟨hmem, hle⟩ := List.min?_eq_some_iff.1 hleast
  obtain ⟨hmem', hle'⟩ := List.max?_eq_some_iff.1 hgreatest
  rw [hmin, hmax]
  exact ⟨hmem, hmem', fun v hv => ⟨hle v hv, hle' v hv⟩⟩

/-- Read without rounding, over the rational numbers or any other ordered field, running statistics are
those of the readings that are numbers, taken at once: how many there are, their mean, their extremes,
and the sum of their squared deviations from the mean. The variance is that sum for each number but one,
and zero for fewer than two numbers; it is never negative. Nothing depends on the order of the readings,
or on those that are no numbers. -/
theorem ofReadings_exact (f : Scalar.StandIns α) (xs : List (Option α)) :
    let s := @ofReadings α (.ofField f) xs
    let vs := xs.reduceOption
    s.count = vs.length ∧ s.mean = vs.sum / vs.length ∧
    (vs ≠ [] → s.min ∈ vs ∧ s.max ∈ vs ∧ ∀ v ∈ vs, s.min ≤ v ∧ v ≤ s.max) ∧
    s.m2 = (vs.map fun v => (v - s.mean) ^ 2).sum ∧
    @variance α (.ofField f) s = (if vs.length < 2 then 0 else s.m2 / (vs.length - 1)) ∧
    0 ≤ @variance α (.ofField f) s ∧
    ∀ ys : List (Option α), ys.reduceOption.Perm vs → @ofReadings α (.ofField f) ys = s := by
  intro s vs
  have hs : s = batch vs := ofReadings_eq f xs
  rw [hs]
  refine ⟨rfl, rfl, extremes_batch, rfl, variance_batch f vs, variance_batch_nonneg f vs, ?_⟩
  intro ys hys
  rw [ofReadings_eq, batch_perm hys]

/-- Stand-ins that leave numbers as they are. -/
def idle : Scalar.StandIns ℚ := ⟨id, id, id, id, fun y _ => y⟩

/-- Five rational numbers, with two readings between them that are no numbers. -/
def scattered : List (Option ℚ) := [some 4, none, some 2, some 5, none, some 1, some 3]

theorem ofReadings_exact_scattered :
    let s := @ofReadings ℚ (.ofField idle) scattered
    s.count = 5 ∧ s.mean = 3 ∧ s.min = 1 ∧ s.max = 5 ∧
      @variance ℚ (.ofField idle) s = 5 / 2 ∧ @ofReadings ℚ (.ofField idle) scattered.reverse = s := by
  intro s
  obtain ⟨hcount, hmean, hextremes, hm2, hvariance, -, horder⟩ := ofReadings_exact idle scattered
  have hvs : scattered.reduceOption = [4, 2, 5, 1, 3] := rfl
  rw [hvs] at hcount hmean hextremes hm2 hvariance horder
  obtain ⟨hmin, hmax, hall⟩ := hextremes nofun
  have hthree : s.mean = 3 := by
    rw [hmean]
    norm_num
  have hwithin : ∀ v ∈ [4, 2, 5, 1, 3], (1 : ℚ) ≤ v ∧ v ≤ 5 := by
    simp only [List.forall_mem_cons]
    norm_num
  refine ⟨hcount, hthree, ?_, ?_, ?_, horder _ ?_⟩
  · exact le_antisymm (hall 1 (by simp)).1 (hwithin _ hmin).1
  · exact le_antisymm (hwithin _ hmax).2 (hall 5 (by simp)).2
  · rw [hvariance, hm2, hthree]
    norm_num
  · change List.Perm [3, 1, 5, 2, 4] [4, 2, 5, 1, 3]
    exact List.reverse_perm [4, 2, 5, 1, 3]

end RunningStats

end LidarSync
