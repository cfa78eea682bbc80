import Mathlib.Analysis.SpecialFunctions.Complex.Arg
import Mathlib.Analysis.SpecialFunctions.Trigonometric.Inverse
import LidarSync.Motion.Compensation

/-!
# Motion over the real numbers

What the formulas of motion mean is read over the reals, without rounding (`instScalarReal`). There
planar displacements can be put one after the other (`Drift.andThen`): driving through one list of
steps and then through another one is driving through both (`drive_append`), and the pose of two
displacements is the product of their poses (`Drift.toPose_andThen`). A step taken in two parts leads
to the same place as the whole step only where it does not turn, up to full circles, in its second
part, or does not move in its first (`Drift.advance_advance_eq_iff`).
-/

namespace LidarSync

noncomputable instance instScalarReal : Scalar ℝ where
  decidableLt := inferInstance
  decidableLe := inferInstance
  equal a b := decide (a = b)
  upTo a b := decide (a ≤ b)
  ofNat n := n
  sqrt := Real.sqrt
  sin := Real.sin
  cos := Real.cos
  asin := Real.arcsin
  atan2 y x := Complex.arg ⟨x, y⟩

/-- A literal with a point is over the reals the number that it shows. -/
theorem scientific_eq (m : Nat) (negative : Bool) (e : Nat) :
    Scalar.toOfScientific.ofScientific m negative e
      = (NNRatCast.toOfScientific.ofScientific m negative e : ℝ) := rfl

theorem scientific_two : (Scalar.toOfScientific.ofScientific 20 true 1 : ℝ) = 2 := by
  rw [scientific_eq]
  norm_num

theorem Vec.add_eq (v w : Vec ℝ) : v + w = ⟨v.x + w.x, v.y + w.y, v.z + w.z⟩ := rfl

theorem Pose.mul_eq (p q : Pose ℝ) :
    p * q = ⟨p.shift + p.rotation.rotate q.shift, p.rotation * q.rotation⟩ := rfl

namespace Drift

variable {d e f : Drift ℝ} {v : Velocity ℝ} {s t : ℝ}

/-- The displacement `d`, and then `e` from there. -/
noncomputable def andThen (d e : Drift ℝ) : Drift ℝ where
  x := d.x + (Real.cos d.yaw * e.x - Real.sin d.yaw * e.y)
  y := d.y + (Real.sin d.yaw * e.x + Real.cos d.yaw * e.y)
  yaw := d.yaw + e.yaw

theorem advance_eq (d : Drift ℝ) (v : Velocity ℝ) (t : ℝ) :
    d.advance v t = ⟨d.x + v.forward * t * Real.cos (d.yaw + v.turnRate * t),
      d.y + v.forward * t * Real.sin (d.yaw + v.turnRate * t), d.yaw + v.turnRate * t⟩ := rfl

theorem none_eq : (none : Drift ℝ) = ⟨0, 0, 0⟩ := rfl

@[simp] theorem none_andThen (d : Drift ℝ) : none.andThen d = d := by
  simp [andThen, none_eq]

@[simp] theorem andThen_none (d : Drift ℝ) : d.andThen none = d := by
  simp [andThen, none_eq]

theorem andThen_assoc (d e f : Drift ℝ) : (d.andThen e).andThen f = d.andThen (e.andThen f) := by
  simp only [andThen, mk.injEq, Real.cos_add, Real.sin_add]
  refine ⟨?_, ?_, ?_⟩ <;> ring

theorem andThen_left_inj : d.andThen e = d.andThen f ↔ e = f := by
  refine ⟨fun h => ?_, fun h => h ▸ rfl⟩
  obtain ⟨ex, ey, eyaw⟩ := e
  obtain ⟨fx, fy, fyaw⟩ := f
  simp only [andThen, mk.injEq, add_right_inj] at h ⊢
  obtain ⟨hx, hy, hyaw⟩ := h
  have hcircle := Real.cos_sq_add_sin_sq d.yaw
  -- The rotation is undone by its transpose.
  refine ⟨?_, ?_, hyaw⟩
  · linear_combination (-ex + fx) * hcircle + Real.cos d.yaw * hx + Real.sin d.yaw * hy
  · linear_combination (-ey + fy) * hcircle - Real.sin d.yaw * hx + Real.cos d.yaw * hy

theorem andThen_right_inj (h : d.yaw = e.yaw) : d.andThen f = e.andThen f ↔ d = e := by
  refine ⟨fun heq => ?_, fun heq => heq ▸ rfl⟩
  obtain ⟨dx, dy, dyaw⟩ := d
  obtain ⟨ex, ey, eyaw⟩ := e
  obtain rfl : dyaw = eyaw := h
  simpa [andThen] using heq

/-- A step from where a displacement led is that step from the origin, seen from there. -/
theorem advance_andThen (d e : Drift ℝ) (v : Velocity ℝ) (t : ℝ) :
    (d.andThen e).advance v t = d.andThen (e.advance v t) := by
  simp only [advance_eq, andThen, mk.injEq, Real.cos_add, Real.sin_add]
  refine ⟨?_, ?_, ?_⟩ <;> ring

/-! ## Poses -/

theorem toPose_eq (d : Drift ℝ) : d.toPose = ⟨⟨d.x, d.y, 0⟩,
    ⟨Real.cos (d.yaw / 2), 0, 0, Real.sin (d.yaw / 2)⟩⟩ := by
  have hcos (x : ℝ) : Scalar.cos x = Real.cos x := rfl
  have hsin (x : ℝ) : Scalar.sin x = Real.sin x := rfl
  have hhalf (x : ℝ) : x * Scalar.toOfScientific.ofScientific 5 true 1 = x / 2 := by
    rw [scientific_eq]
    ring
  simp [toPose, Quaternion.ofAngles, hcos, hsin, hhalf]

@[simp] theorem toPose_none : (none : Drift ℝ).toPose = Pose.identity := by
  simp [toPose_eq, none_eq, Pose.identity, Quaternion.identity, Vec.origin]

/-- A rotation about z, held with half its angle, turns a vector by the angle and keeps its height. -/
theorem rotate_planar (a x y z : ℝ) :
    (⟨Real.cos (a / 2), 0, 0, Real.sin (a / 2)⟩ : Quaternion ℝ).rotate ⟨x, y, z⟩
      = ⟨Real.cos a * x - Real.sin a * y, Real.sin a * x + Real.cos a * y, z⟩ := by
  have hhalf : a = 2 * (a / 2) := by ring
  generalize a / 2 = b at hhalf
  subst hhalf
  rw [Real.cos_two_mul, Real.sin_two_mul]
  have hcircle := Real.sin_sq_add_cos_sq b
  simp only [Quaternion.rotate, Quaternion.vector, Vec.cross, Vec.scale, Vec.add_eq, scientific_two,
    Vec.mk.injEq]
  refine ⟨?_, ?_, ?_⟩
  · linear_combination -2 * x * hcircle
  · linear_combination -2 * y * hcircle
  · ring

theorem toPose_andThen (d e : Drift ℝ) : (d.andThen e).toPose = d.toPose * e.toPose := by
  have hyaw : (d.andThen e).yaw / 2 = d.yaw / 2 + e.yaw / 2 := add_div _ _ _
  rw [Pose.mul_eq, toPose_eq, toPose_eq, toPose_eq, rotate_planar, hyaw, Real.cos_add, Real.sin_add]
  change Pose.mk _ _ = Pose.mk (Vec.mk _ _ _) (Quaternion.mk _ _ _ _)
  simp only [andThen, Pose.mk.injEq, Vec.mk.injEq, Quaternion.mk.injEq]
  refine ⟨⟨trivial, trivial, ?_⟩, ?_, ?_, ?_, ?_⟩ <;> ring

@[simp] theorem identity_mul_toPose (d : Drift ℝ) : Pose.identity * d.toPose = d.toPose := by
  rw [← toPose_none, ← toPose_andThen, none_andThen]

/-- Displacements that turn alike have the same pose only where they are the same. -/
theorem toPose_inj (h : d.yaw = e.yaw) : d.toPose = e.toPose ↔ d = e := by
  refine ⟨fun heq => ?_, fun heq => heq ▸ rfl⟩
  rw [toPose_eq, toPose_eq] at heq
  obtain ⟨dx, dy, dyaw⟩ := d
  obtain ⟨ex, ey, eyaw⟩ := e
  simp_all

/-! ## Steps in two parts -/

theorem cos_eq_one_iff_add {a b : ℝ} :
    Real.cos b = 1 ↔ Real.cos (a + b) = Real.cos a ∧ Real.sin (a + b) = Real.sin a := by
  constructor
  · intro hcos
    have hsin : Real.sin b = 0 := by
      have hcircle := Real.sin_sq_add_cos_sq b
      rw [hcos] at hcircle
      exact pow_eq_zero_iff two_ne_zero |>.1 (by linarith)
    simp [Real.cos_add, Real.sin_add, hcos, hsin]
  · rintro ⟨hcos, hsin⟩
    have hcircle := Real.sin_sq_add_cos_sq a
    calc Real.cos b = Real.cos ((a + b) - a) := by rw [add_sub_cancel_left]
      _ = Real.cos (a + b) * Real.cos a + Real.sin (a + b) * Real.sin a := Real.cos_sub _ _
      _ = 1 := by rw [hcos, hsin]; linarith

/-- A step in two parts leads to where the whole step leads exactly when the vehicle does not move in
the first part or turns by full circles in the second. -/
theorem advance_advance_eq_iff (v : Velocity ℝ) (s t : ℝ) :
    (none.advance v s).advance v t = none.advance v (s + t) ↔
      v.forward * s = 0 ∨ Real.cos (v.turnRate * t) = 1 := by
  have hyaw : v.turnRate * s + v.turnRate * t = v.turnRate * (s + t) := by ring
  rw [cos_eq_one_iff_add (a := v.turnRate * s)]
  simp only [advance_eq, none_eq, zero_add, hyaw, mk.injEq, and_true]
  constructor
  · rintro ⟨hx, hy⟩
    rw [or_iff_not_imp_left]
    intro hmoves
    constructor
    · apply mul_left_cancel₀ hmoves
      linarith
    · apply mul_left_cancel₀ hmoves
      linarith
  · rintro (hstill | ⟨hcos, hsin⟩)
    · have hwhole : v.forward * (s + t) = v.forward * t := by linarith
      simp [hstill, hwhole]
    · rw [hcos, hsin]
      constructor <;> ring

end Drift

/-! ## Driving -/

theorem foldl_advance (d : Drift ℝ) (xs : List (Step ℝ)) :
    xs.foldl (fun d s => d.advance s.1 s.2) d = d.andThen (drive xs) := by
  unfold drive
  induction xs using List.reverseRecOn with
  | nil => simp
  | append_singleton xs x ih => simp [ih, Drift.advance_andThen]

theorem drive_append (xs ys : List (Step ℝ)) : drive (xs ++ ys) = (drive xs).andThen (drive ys) := by
  rw [← foldl_advance]
  unfold drive
  rw [List.foldl_append]

theorem drive_cons (x : Step ℝ) (xs : List (Step ℝ)) :
    drive (x :: xs) = (Drift.none.advance x.1 x.2).andThen (drive xs) := foldl_advance _ xs

end LidarSync
