import LidarSync.Proofs.Decimal.Double
import LidarSync.Scalar
import Mathlib.Order.Compare

/-!
# The order of doubles

A double that is a number has a `place` among the integers: its word without the sign, negative for
a negative one. Comparing two numbers is comparing their places (`compare_place`), so `<`, `≤` and
`==` behave on numbers as they do on integers; only the two zeros share a place. The order of all
words, by which lists of doubles are sorted, never disagrees with it (`place_le_of_upTo`).
-/

namespace LidarSync.Decimal

open Float.Model (Format UnpackedFloat)
open Float.Model.UnpackedFloat

/-- The place of a double that is a number. -/
def place (x : Float) : Int :=
  let word : Int := x.toBits.toNat
  if word < 0x8000000000000000 then word else 0x8000000000000000 - word

/-! ## Places of unpacked numbers -/

/-- The place of an unpacked number. -/
def weight : UnpackedFloat → Int
  | .notANumber => 0
  | .infinity s => s.apply 0x7FF0000000000000
  | .zero _ => 0
  | .finite s m e _ => s.apply ((e + 1074) * 0x10000000000000 + m)

theorem weight_finite (s : Sign) (m : Nat) (e : Int) (hm : 0 < m) :
    weight (.finite s m e hm) = s.apply ((e + 1074) * 0x10000000000000 + m) := rfl

theorem word_eq (b : BitVec Format.binary64.numBits) :
    (unpackSign b).toNat * 0x8000000000000000 + (unpackExponent b).toNat * 0x10000000000000
      + (unpackMantissa b).toNat = b.toNat := by
  have hlt : b.toNat < 0x10000000000000000 := b.isLt
  rw [toNat_unpackSign, toNat_unpackExponent, toNat_unpackMantissa]
  change b.toNat / 0x8000000000000000 % 2 * 0x8000000000000000
    + b.toNat / 0x10000000000000 % 0x800 * 0x10000000000000 + b.toNat % 0x10000000000000 = b.toNat
  omega

theorem apply_ofBitVec (v : BitVec 1) (n : Int) :
    (Sign.ofBitVec v).apply n = if v.toNat = 0 then n else -n := by
  have h : v = 0#1 ∨ v = 1#1 := by
    revert v
    decide
  rcases h with rfl | rfl <;> rfl

theorem weight_unpack {b : BitVec Format.binary64.numBits}
    (h : unpack Format.binary64 b ≠ .notANumber) :
    weight (unpack Format.binary64 b) = (Sign.ofBitVec (unpackSign b)).apply
      ((unpackExponent b).toNat * 0x10000000000000 + (unpackMantissa b).toNat) := by
  by_cases hmax : unpackExponent b = -1#11
  · have hmantissa : unpackMantissa b = 0#52 := by
      by_contra hne
      apply h
      unfold unpack
      rw [if_pos hmax, if_neg hne]
    have hinfinity : unpack Format.binary64 b = .infinity (Sign.ofBitVec (unpackSign b)) := by
      unfold unpack
      rw [if_pos hmax, if_pos hmantissa]
    have hexponent : (unpackExponent b).toNat = 2047 := congrArg BitVec.toNat hmax
    have hnothing : (unpackMantissa b).toNat = 0 := congrArg BitVec.toNat hmantissa
    rw [hinfinity, hexponent, hnothing]
    rfl
  by_cases hzero : unpackExponent b = 0#11
  · have hexponent : (unpackExponent b).toNat = 0 := congrArg BitVec.toNat hzero
    by_cases hmantissa : unpackMantissa b = 0#52
    · have hnothing : (unpackMantissa b).toNat = 0 := congrArg BitVec.toNat hmantissa
      rw [unpack_of_zero hzero hmantissa, hexponent, hnothing]
      cases Sign.ofBitVec (unpackSign b) <;> rfl
    · obtain ⟨_, heq⟩ := unpack_of_subnormal hzero hmantissa
      rw [heq, weight_finite, hexponent]
      rfl
  · obtain ⟨_, heq⟩ := unpack_normal hmax hzero
    rw [heq, weight_finite]
    congr 1
    push_cast
    omega

/-! ## Comparison -/

/-- What is unpacked from a word is not NaN, and its mantissa is as long as its exponent allows. -/
def Canonical : UnpackedFloat → Prop
  | .notANumber => False
  | .infinity _ => True
  | .zero _ => True
  | .finite _ m e _ =>
    m < 0x20000000000000 ∧ -1074 ≤ e ∧ e ≤ 971 ∧ (e = -1074 ∨ 0x10000000000000 ≤ m)

theorem canonical_unpack {b : BitVec Format.binary64.numBits}
    (h : unpack Format.binary64 b ≠ .notANumber) : Canonical (unpack Format.binary64 b) := by
  cases hb : unpack Format.binary64 b with
  | notANumber => exact h hb
  | infinity s => trivial
  | zero s => trivial
  | finite s m e hm =>
    have hmantissa : (unpackMantissa b).toNat < 0x10000000000000 := (unpackMantissa b).isLt
    obtain ⟨-, ⟨hzero, rfl, rfl⟩ | ⟨hzero, hmax, rfl, rfl⟩⟩ := fields_of_unpack hb
    · refine ⟨?_, ?_, ?_, Or.inl rfl⟩ <;> omega
    · refine ⟨?_, ?_, ?_, Or.inr ?_⟩ <;> omega

/-- The larger exponent counts, and between equal ones the larger mantissa. -/
theorem compare_magnitude {m m' : Nat} {e e' : Int} (hm : m < 0x20000000000000)
    (hm' : m' < 0x20000000000000) (hlow : -1074 ≤ e) (hlow' : -1074 ≤ e')
    (hlong : e = -1074 ∨ 0x10000000000000 ≤ m) (hlong' : e' = -1074 ∨ 0x10000000000000 ≤ m') :
    (compare e e').then (compare m m') = compare ((e + 1074) * 0x10000000000000 + m)
      ((e' + 1074) * 0x10000000000000 + m') := by
  rcases lt_trichotomy e e' with hlt | rfl | hgt
  · have hplace : (e + 1074) * 0x10000000000000 + m < (e' + 1074) * 0x10000000000000 + m' := by
      omega
    rw [compare_lt_iff_lt.2 hlt, compare_lt_iff_lt.2 hplace]
    rfl
  · rw [compare_eq_iff_eq.2 rfl]
    change compare m m' = _
    rcases lt_trichotomy m m' with hlt | rfl | hgt
    · have hplace : (e + 1074) * 0x10000000000000 + m < (e + 1074) * 0x10000000000000 + m' := by
        omega
      rw [compare_lt_iff_lt.2 hlt, compare_lt_iff_lt.2 hplace]
    · rw [compare_eq_iff_eq.2 rfl, compare_eq_iff_eq.2 rfl]
    · have hplace : (e + 1074) * 0x10000000000000 + m' < (e + 1074) * 0x10000000000000 + m := by
        omega
      rw [compare_gt_iff_gt.2 hgt, compare_gt_iff_gt.2 hplace]
  · have hplace : (e' + 1074) * 0x10000000000000 + m' < (e + 1074) * 0x10000000000000 + m := by
      omega
    rw [compare_gt_iff_gt.2 hgt, compare_gt_iff_gt.2 hplace]
    rfl

theorem some_lt {a b : Int} (h : a < b) : some Ordering.lt = some (compare a b) :=
  congrArg some (compare_lt_iff_lt.2 h).symm

theorem some_gt {a b : Int} (h : b < a) : some Ordering.gt = some (compare a b) :=
  congrArg some (compare_gt_iff_gt.2 h).symm

theorem compare_neg (a b : Int) : compare (-a) (-b) = (compare a b).swap := by
  rcases lt_trichotomy a b with hlt | rfl | hgt
  · rw [compare_lt_iff_lt.2 hlt, compare_gt_iff_gt.2 (neg_lt_neg hlt)]
    rfl
  · rw [compare_eq_iff_eq.2 rfl, compare_eq_iff_eq.2 rfl]
    rfl
  · rw [compare_gt_iff_gt.2 hgt, compare_lt_iff_lt.2 (neg_lt_neg hgt)]
    rfl

/-- Numbers are compared by their places. -/
theorem compare_eq {a b : UnpackedFloat} (ha : Canonical a) (hb : Canonical b) :
    UnpackedFloat.compare a b = some (compare (weight a) (weight b)) := by
  cases a with
  | notANumber => exact absurd ha id
  | infinity s =>
    cases b with
    | notANumber => exact absurd hb id
    | infinity s' => cases s <;> cases s' <;> decide
    | zero s' => cases s <;> cases s' <;> decide
    | finite s' m' e' hm' =>
      obtain ⟨hlong, hlow, hhigh, -⟩ := hb
      cases s with
      | positive =>
        apply some_gt
        cases s' <;> dsimp only [weight, Sign.apply] <;> omega
      | negative =>
        apply some_lt
        cases s' <;> dsimp only [weight, Sign.apply] <;> omega
  | zero s =>
    cases b with
    | notANumber => exact absurd hb id
    | infinity s' => cases s <;> cases s' <;> decide
    | zero s' => rfl
    | finite s' m' e' hm' =>
      obtain ⟨hlong, hlow, hhigh, -⟩ := hb
      cases s' with
      | positive =>
        apply some_lt
        dsimp only [weight, Sign.apply]
        omega
      | negative =>
        apply some_gt
        dsimp only [weight, Sign.apply]
        omega
  | finite s m e hm =>
    obtain ⟨hlong, hlow, hhigh, hshort⟩ := ha
    cases b with
    | notANumber => exact absurd hb id
    | infinity s' =>
      cases s' with
      | positive =>
        apply some_lt
        cases s <;> dsimp only [weight, Sign.apply] <;> omega
      | negative =>
        apply some_gt
        cases s <;> dsimp only [weight, Sign.apply] <;> omega
    | zero s' =>
      cases s with
      | positive =>
        apply some_gt
        dsimp only [weight, Sign.apply]
        omega
      | negative =>
        apply some_lt
        dsimp only [weight, Sign.apply]
        omega
    | finite s' m' e' hm' =>
      obtain ⟨hlong', hlow', hhigh', hshort'⟩ := hb
      have hmagnitude := compare_magnitude hlong hlong' hlow hlow' hshort hshort'
      cases s with
      | positive =>
        cases s' with
        | positive => exact congrArg some hmagnitude
        | negative =>
          apply some_gt
          dsimp only [weight, Sign.apply]
          omega
      | negative =>
        cases s' with
        | positive =>
          apply some_lt
          dsimp only [weight, Sign.apply]
          omega
        | negative =>
          change some ((compare e e').then (compare m m')).swap = _
          rw [hmagnitude, ← compare_neg]
          rfl

/-! ## Doubles -/

section Doubles

variable {x y z : Float}

theorem isNaN_eq_false_iff : x.isNaN = false ↔ x.toModel.unpack ≠ .notANumber := by
  change x.toModel.unpack.isNaN = false ↔ _
  cases x.toModel.unpack with
  | notANumber => exact iff_of_false (by decide) (not_not_intro rfl)
  | infinity s => exact iff_of_true rfl nofun
  | zero s => exact iff_of_true rfl nofun
  | finite s m e hm => exact iff_of_true rfl nofun

theorem canonical_of_isNaN (hx : x.isNaN = false) : Canonical x.toModel.unpack :=
  canonical_unpack (isNaN_eq_false_iff.1 hx)

theorem place_eq (h : x.isNaN = false) : place x = weight x.toModel.unpack := by
  have hunpack := weight_unpack (isNaN_eq_false_iff.1 h)
  have hword : _ = x.toBits.toNat := word_eq x.toModel.toBits.toBitVec
  change place x = weight (unpack Format.binary64 x.toModel.toBits.toBitVec)
  rw [hunpack, apply_ofBitVec]
  unfold place
  revert hword
  generalize @unpackSign Format.binary64 x.toModel.toBits.toBitVec = sign
  generalize @unpackExponent Format.binary64 x.toModel.toBits.toBitVec = exponent
  generalize @unpackMantissa Format.binary64 x.toModel.toBits.toBitVec = mantissa
  intro hword
  have hsign : sign.toNat < 2 := sign.isLt
  have hexponent : exponent.toNat < 0x800 := exponent.isLt
  have hmantissa : mantissa.toNat < 0x10000000000000 := mantissa.isLt
  dsimp only
  split <;> split <;> omega

theorem compare_place (hx : x.isNaN = false) (hy : y.isNaN = false) :
    UnpackedFloat.compare x.toModel.unpack y.toModel.unpack
      = some (compare (place x) (place y)) := by
  rw [place_eq hx, place_eq hy]
  exact compare_eq (canonical_of_isNaN hx) (canonical_of_isNaN hy)

/-- What is less than something is a number. -/
theorem isNaN_of_lt (h : x < y) : x.isNaN = false := by
  rw [isNaN_eq_false_iff]
  intro hx
  have hlt : UnpackedFloat.lt x.toModel.unpack y.toModel.unpack = true := of_decide_eq_true h
  rw [hx] at hlt
  exact absurd hlt nofun

/-- Only numbers can be compared. -/
theorem isNaN_of_compare {o : Ordering}
    (h : UnpackedFloat.compare x.toModel.unpack y.toModel.unpack = some o) :
    x.isNaN = false ∧ y.isNaN = false := by
  rw [isNaN_eq_false_iff, isNaN_eq_false_iff]
  constructor
  · intro hx
    rw [hx] at h
    exact absurd h nofun
  · intro hy
    rw [hy] at h
    cases hx : x.toModel.unpack <;> rw [hx] at h <;> exact absurd h nofun

theorem isNaN_of_gt (h : x < y) : y.isNaN = false := by
  have hlt : UnpackedFloat.lt x.toModel.unpack y.toModel.unpack = true := of_decide_eq_true h
  rw [UnpackedFloat.lt, beq_iff_eq] at hlt
  exact (isNaN_of_compare hlt).2

theorem isNaN_of_le (h : x ≤ y) : x.isNaN = false := by
  have hle : UnpackedFloat.le x.toModel.unpack y.toModel.unpack = true := of_decide_eq_true h
  obtain ⟨o, ho, -⟩ := (Option.any_eq_true _ _).1 hle
  exact (isNaN_of_compare ho).1

theorem isNaN_of_ge (h : x ≤ y) : y.isNaN = false := by
  have hle : UnpackedFloat.le x.toModel.unpack y.toModel.unpack = true := of_decide_eq_true h
  obtain ⟨o, ho, -⟩ := (Option.any_eq_true _ _).1 hle
  exact (isNaN_of_compare ho).2

theorem isNaN_of_beq (h : (x == y) = true) : x.isNaN = false ∧ y.isNaN = false := by
  have hbeq : (UnpackedFloat.compare x.toModel.unpack y.toModel.unpack == some .eq) = true := h
  rw [beq_iff_eq] at hbeq
  exact isNaN_of_compare hbeq

/-- On numbers, less is less in place. -/
theorem lt_iff_place (hx : x.isNaN = false) (hy : y.isNaN = false) :
    x < y ↔ place x < place y := by
  have hcompare := compare_place hx hy
  have hlt : x < y ↔ UnpackedFloat.lt x.toModel.unpack y.toModel.unpack = true := by
    change decide _ = true ↔ _
    exact decide_eq_true_iff
  rw [hlt, UnpackedFloat.lt, hcompare, ← compare_lt_iff_lt, beq_iff_eq, Option.some_inj]

theorem le_iff_place (hx : x.isNaN = false) (hy : y.isNaN = false) :
    x ≤ y ↔ place x ≤ place y := by
  have hcompare := compare_place hx hy
  have hle : x ≤ y ↔ UnpackedFloat.le x.toModel.unpack y.toModel.unpack = true := by
    change decide _ = true ↔ _
    exact decide_eq_true_iff
  rw [hle, UnpackedFloat.le, hcompare, ← compare_le_iff_le, Option.any_some, ne_eq,
    ← Ordering.isLE_eq_false, Bool.not_eq_false]

theorem le_chain (h : x ≤ y) (h' : y ≤ z) : x ≤ z := by
  have hx := isNaN_of_le h
  have hy := isNaN_of_ge h
  have hz := isNaN_of_ge h'
  rw [le_iff_place hx hy] at h
  rw [le_iff_place hy hz] at h'
  exact (le_iff_place hx hz).2 (h.trans h')

theorem not_lt_iff_le (hx : x.isNaN = false) (hy : y.isNaN = false) : ¬ x < y ↔ y ≤ x := by
  rw [lt_iff_place hx hy, le_iff_place hy hx, not_lt]

theorem not_le_iff_lt (hx : x.isNaN = false) (hy : y.isNaN = false) : ¬ x ≤ y ↔ y < x := by
  rw [le_iff_place hx hy, lt_iff_place hy hx, not_le]

theorem beq_iff_place (hx : x.isNaN = false) (hy : y.isNaN = false) :
    (x == y) = true ↔ place x = place y := by
  have hcompare := compare_place hx hy
  have hbeq : (x == y) = (UnpackedFloat.compare x.toModel.unpack y.toModel.unpack == some .eq) :=
    rfl
  rw [hbeq, hcompare, beq_iff_eq, Option.some_inj, compare_eq_iff_eq]

/-- What is not NaN stands in the order of all words where it stands among the numbers. -/
theorem place_le_of_upTo (h : Scalar.upTo x y = true) : place x ≤ place y := by
  have hrank : floatRank x ≤ floatRank y := of_decide_eq_true h
  unfold floatRank at hrank
  unfold place
  dsimp only at hrank ⊢
  omega

end Doubles

end LidarSync.Decimal
