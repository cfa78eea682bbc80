import Mathlib.Algebra.Group.MinimalAxioms
import LidarSync.Proofs.Motion.Exact

/-!
# The group of rigid motions

Over the reals, a quaternion of length one is a rotation (`Quaternion.rotate_eq`), and products of such
rotate as their factors do one after the other (`Quaternion.rotate_mul`). So the poses whose rotation
has length one are a group (`RigidMotion`), with the product and the inverse of poses. The poses that
are given by three angles are among them (`Pose.isRigid_ofAngles`).
-/

namespace LidarSync

namespace Vec

theorem origin_eq : (origin : Vec ℝ) = ⟨0, 0, 0⟩ := rfl

theorem origin_add (v : Vec ℝ) : origin + v = v := by
  simp [add_eq, origin_eq]

theorem neg_add (v : Vec ℝ) : -v + v = origin := by
  have hneg : -v = ⟨-v.x, -v.y, -v.z⟩ := rfl
  simp [hneg, add_eq, origin_eq]

end Vec

namespace Quaternion

/-- A quaternion of length one. -/
def IsRotation (q : Quaternion ℝ) : Prop := q.w * q.w + q.i * q.i + q.j * q.j + q.k * q.k = 1

variable {p q : Quaternion ℝ}

theorem mul_eq (p q : Quaternion ℝ) : p * q =
    ⟨p.w * q.w - p.i * q.i - p.j * q.j - p.k * q.k, p.w * q.i + p.i * q.w + p.j * q.k - p.k * q.j,
      p.w * q.j - p.i * q.k + p.j * q.w + p.k * q.i, p.w * q.k + p.i * q.j - p.j * q.i + p.k * q.w⟩ :=
  rfl

theorem identity_eq : (identity : Quaternion ℝ) = ⟨1, 0, 0, 0⟩ := rfl

theorem conjugate_eq (q : Quaternion ℝ) : q.conjugate = ⟨q.w, -q.i, -q.j, -q.k⟩ := rfl

/-- The matrix of a rotation. -/
theorem rotate_eq (hq : q.IsRotation) (v : Vec ℝ) : q.rotate v =
    ⟨(q.w * q.w + q.i * q.i - q.j * q.j - q.k * q.k) * v.x + 2 * (q.i * q.j - q.w * q.k) * v.y
        + 2 * (q.i * q.k + q.w * q.j) * v.z,
      2 * (q.i * q.j + q.w * q.k) * v.x + (q.w * q.w - q.i * q.i + q.j * q.j - q.k * q.k) * v.y
        + 2 * (q.j * q.k - q.w * q.i) * v.z,
      2 * (q.i * q.k - q.w * q.j) * v.x + 2 * (q.j * q.k + q.w * q.i) * v.y
        + (q.w * q.w - q.i * q.i - q.j * q.j + q.k * q.k) * v.z⟩ := by
  unfold IsRotation at hq
  simp only [rotate, vector, Vec.cross, Vec.scale, Vec.add_eq, scientific_two, Vec.mk.injEq]
  refine ⟨?_, ?_, ?_⟩
  · linear_combination -v.x * hq
  · linear_combination -v.y * hq
  · linear_combination -v.z * hq

theorem isRotation_identity : (identity : Quaternion ℝ).IsRotation := by
  simp [IsRotation, identity_eq]

theorem IsRotation.mul (hp : p.IsRotation) (hq : q.IsRotation) : (p * q).IsRotation := by
  unfold IsRotation at hp hq ⊢
  rw [mul_eq]
  linear_combination (q.w * q.w + q.i * q.i + q.j * q.j + q.k * q.k) * hp + hq

theorem IsRotation.conjugate (hq : q.IsRotation) : q.conjugate.IsRotation := by
  unfold IsRotation at hq ⊢
  rw [conjugate_eq]
  linear_combination hq

theorem mul_assoc (p q r : Quaternion ℝ) : p * q * r = p * (q * r) := by
  simp only [mul_eq, mk.injEq]
  refine ⟨?_, ?_, ?_, ?_⟩ <;> ring

theorem identity_mul (q : Quaternion ℝ) : identity * q = q := by
  simp [mul_eq, identity_eq]

theorem conjugate_mul (hq : q.IsRotation) : q.conjugate * q = identity := by
  obtain ⟨w, i, j, k⟩ := q
  have hlength : w * w + i * i + j * j + k * k = 1 := hq
  rw [conjugate_eq, mul_eq, identity_eq, mk.injEq]
  refine ⟨?_, ?_, ?_, ?_⟩
  · linear_combination hlength
  all_goals ring

theorem rotate_identity (v : Vec ℝ) : (identity : Quaternion ℝ).rotate v = v := by
  rw [rotate_eq isRotation_identity]
  simp [identity_eq]

theorem rotate_add (q : Quaternion ℝ) (v w : Vec ℝ) : q.rotate (v + w) = q.rotate v + q.rotate w := by
  simp only [rotate, vector, Vec.cross, Vec.scale, Vec.add_eq, scientific_two, Vec.mk.injEq]
  refine ⟨?_, ?_, ?_⟩ <;> ring

theorem rotate_origin (q : Quaternion ℝ) : q.rotate Vec.origin = Vec.origin := by
  simp [rotate, vector, Vec.cross, Vec.scale, Vec.add_eq, Vec.origin_eq]

/-- A product rotates as its factors do one after the other. -/
theorem rotate_mul (hp : p.IsRotation) (hq : q.IsRotation) (v : Vec ℝ) :
    (p * q).rotate v = p.rotate (q.rotate v) := by
  rw [rotate_eq (hp.mul hq), rotate_eq hp, rotate_eq hq]
  simp only [mul_eq, Vec.mk.injEq]
  refine ⟨?_, ?_, ?_⟩ <;> ring

end Quaternion

namespace Pose

/-- A pose that keeps distances. -/
def IsRigid (p : Pose ℝ) : Prop := p.rotation.IsRotation

variable {p q : Pose ℝ}

theorem isRigid_identity : (identity : Pose ℝ).IsRigid := Quaternion.isRotation_identity

theorem IsRigid.mul (hp : p.IsRigid) (hq : q.IsRigid) : (p * q).IsRigid := Quaternion.IsRotation.mul hp hq

theorem IsRigid.inverse (hp : p.IsRigid) : p.inverse.IsRigid := Quaternion.IsRotation.conjugate hp

/-- The rotation by three angles has length one. -/
theorem isRigid_ofAngles (shift : Vec ℝ) (roll pitch yaw : ℝ) :
    IsRigid ⟨shift, .ofAngles roll pitch yaw⟩ := by
  have hcos (x : ℝ) : Scalar.cos x = Real.cos x := rfl
  have hsin (x : ℝ) : Scalar.sin x = Real.sin x := rfl
  unfold IsRigid Quaternion.IsRotation Quaternion.ofAngles
  simp only [hcos, hsin]
  generalize roll * _ = a
  generalize pitch * _ = b
  generalize yaw * _ = c
  have ha := Real.cos_sq_add_sin_sq a
  have hb := Real.cos_sq_add_sin_sq b
  have hc := Real.cos_sq_add_sin_sq c
  linear_combination (Real.cos b ^ 2 + Real.sin b ^ 2) * (Real.cos c ^ 2 + Real.sin c ^ 2) * ha
    + (Real.cos c ^ 2 + Real.sin c ^ 2) * hb + hc

end Pose

/-! ## The group -/

/-- A rotation and a shift, without rounding. -/
def RigidMotion : Type := {p : Pose ℝ // p.IsRigid}

namespace RigidMotion

noncomputable instance : Mul RigidMotion := ⟨fun p q => ⟨p.1 * q.1, p.2.mul q.2⟩⟩

noncomputable instance : One RigidMotion := ⟨⟨Pose.identity, Pose.isRigid_identity⟩⟩

noncomputable instance : Inv RigidMotion := ⟨fun p => ⟨p.1.inverse, p.2.inverse⟩⟩

theorem val_mul (p q : RigidMotion) : (p * q).1 = p.1 * q.1 := rfl

theorem val_one : (1 : RigidMotion).1 = Pose.identity := rfl

theorem val_inv (p : RigidMotion) : (p⁻¹).1 = p.1.inverse := rfl

theorem assoc (p q r : RigidMotion) : p * q * r = p * (q * r) := by
  apply Subtype.ext
  simp only [val_mul, Pose.mul_eq, Pose.mk.injEq]
  refine ⟨?_, Quaternion.mul_assoc _ _ _⟩
  rw [Quaternion.rotate_mul p.2 q.2, Quaternion.rotate_add]
  simp only [Vec.add_eq, Vec.mk.injEq]
  exact ⟨add_assoc _ _ _, add_assoc _ _ _, add_assoc _ _ _⟩

theorem one_mul (p : RigidMotion) : 1 * p = p := by
  apply Subtype.ext
  rw [val_mul, val_one, Pose.mul_eq, Pose.identity, Quaternion.rotate_identity,
    Quaternion.identity_mul, Vec.origin_add]

theorem inv_mul_cancel (p : RigidMotion) : p⁻¹ * p = 1 := by
  apply Subtype.ext
  rw [val_mul, val_inv, Pose.mul_eq, Pose.inverse, ← Quaternion.rotate_add, Vec.neg_add,
    Quaternion.rotate_origin, Quaternion.conjugate_mul p.2]
  rfl

noncomputable instance : Group RigidMotion := .ofLeftAxioms assoc one_mul inv_mul_cancel

end RigidMotion

end LidarSync
