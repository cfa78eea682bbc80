import LidarSync.Proofs.Motion.Telescope

/-!
# Motions of the plane

A vehicle drives in the plane. Whatever the reports and however many legs a chain has, cut short or
not, what corrects a cloud is a turn about z and a shift without height
(`History.exists_toPose_chainedCorrection`). Such a motion leaves heights and distances as they are,
and the angle that is read back from its rotation turns as the motion does, though it may differ from
the angle of the vehicle by full circles (`Drift.yaw_toPose`): shift and angle tell all of it
(`Drift.apply_toPose_eq_turned`).
-/

namespace LidarSync

namespace Vec

/-- A vector turned about z by an angle. -/
noncomputable def turned (v : Vec ℝ) (angle : ℝ) : Vec ℝ :=
  ⟨Real.cos angle * v.x - Real.sin angle * v.y, Real.sin angle * v.x + Real.cos angle * v.y, v.z⟩

noncomputable def distance (v w : Vec ℝ) : ℝ :=
  Real.sqrt ((v.x - w.x) ^ 2 + (v.y - w.y) ^ 2 + (v.z - w.z) ^ 2)

theorem distance_turned_add (v w s : Vec ℝ) (angle : ℝ) :
    (v.turned angle + s).distance (w.turned angle + s) = v.distance w := by
  have hcircle := Real.sin_sq_add_cos_sq angle
  unfold distance
  congr 1
  simp only [add_eq, turned]
  linear_combination ((v.x - w.x) ^ 2 + (v.y - w.y) ^ 2) * hcircle

end Vec

namespace Drift

/-- A displacement turns what it moves by its angle and then shifts it. -/
theorem apply_toPose (d : Drift ℝ) (v : Vec ℝ) :
    d.toPose.apply v = v.turned d.yaw + ⟨d.x, d.y, 0⟩ := by
  rw [toPose_eq, Pose.apply, rotate_planar]
  rfl

/-- The angle that is read back from the rotation of a displacement is that of the direction in which
the vehicle heads. -/
theorem yaw_eq_arg (d : Drift ℝ) :
    d.toPose.rotation.yaw = Complex.arg ⟨Real.cos d.yaw, Real.sin d.yaw⟩ := by
  rw [toPose_eq]
  generalize hhalf : d.yaw / 2 = b
  have hwhole : d.yaw = 2 * b := by linarith
  have hpitch : Scalar.cos (-(Scalar.asin 0) : ℝ) = 1 := by
    change Real.cos (-(Real.arcsin 0)) = 1
    simp
  have hatan (y x : ℝ) : Scalar.atan2 y x = Complex.arg ⟨x, y⟩ := rfl
  unfold Quaternion.yaw
  simp only [scientific_two, mul_zero, zero_mul, sub_zero, add_zero]
  rw [hwhole, Real.cos_two_mul', Real.sin_two_mul, if_pos (by simp [Scalar.magnitude]), hpitch,
    hatan]
  congr 2
  · ring
  · ring

/-- The angle that is read back from the rotation of a displacement turns as the displacement does. -/
theorem yaw_toPose (d : Drift ℝ) : Real.cos d.toPose.rotation.yaw = Real.cos d.yaw ∧
    Real.sin d.toPose.rotation.yaw = Real.sin d.yaw := by
  have hyaw := yaw_eq_arg d
  have hnorm : ‖(⟨Real.cos d.yaw, Real.sin d.yaw⟩ : ℂ)‖ = 1 := by
    have hcircle := Real.cos_sq_add_sin_sq d.yaw
    rw [Complex.norm_def, Complex.normSq_mk, ← pow_two, ← pow_two, hcircle, Real.sqrt_one]
  have hne : (⟨Real.cos d.yaw, Real.sin d.yaw⟩ : ℂ) ≠ 0 := by
    intro hzero
    rw [hzero, norm_zero] at hnorm
    exact zero_ne_one hnorm
  rw [hyaw, Complex.cos_arg hne, Complex.sin_arg, hnorm, div_one, div_one]
  exact ⟨rfl, rfl⟩

/-- The shift and the angle that are read from a displacement tell where it moves anything. -/
theorem apply_toPose_eq_turned (d : Drift ℝ) (v : Vec ℝ) : d.toPose.apply v
    = v.turned d.toPose.rotation.yaw + ⟨d.toPose.shift.x, d.toPose.shift.y, 0⟩ := by
  obtain ⟨hcos, hsin⟩ := yaw_toPose d
  rw [apply_toPose, Vec.turned, Vec.turned, hcos, hsin, toPose_eq]

end Drift

namespace History

theorem exists_toPose_foldlM_chainLeg (h : History ℝ) (stamps : List ℝ) (d : Drift ℝ) (n : Nat)
    (t : ℝ) : ∃ e k u, stamps.foldlM (chainLeg h) (⟨Drift.toPose d, n⟩, t)
      = some (⟨Drift.toPose e, k⟩, u) := by
  induction stamps generalizing d n t with
  | nil => exact ⟨d, n, t, rfl⟩
  | cons u rest ih =>
    obtain ⟨e, k, r, heq⟩ := ih ((h.drift u t).andThen d) _ _
    refine ⟨e, k, r, ?_⟩
    rw [List.foldlM_cons, chainLeg_eq]
    exact heq

/-- Whatever the legs, a chain has an answer, which is the pose of a displacement. -/
theorem exists_toPose_chainedCorrection (h : History ℝ) (stamps : List ℝ) (stamp : ℝ) :
    ∃ d n, chainedCorrection h stamps stamp = some ⟨Drift.toPose d, n⟩ := by
  obtain ⟨e, k, u, heq⟩ := h.exists_toPose_foldlM_chainLeg stamps Drift.none 0 stamp
  rw [Drift.toPose_none] at heq
  refine ⟨e, k, ?_⟩
  rw [chainedCorrection, heq]
  rfl

end History

end LidarSync
