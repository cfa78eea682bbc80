import LidarSync.Decimal.Rounded
import Mathlib.Algebra.Order.Field.Power
import Mathlib.Tactic.FieldSimp
import Mathlib.Tactic.Linarith
import Mathlib.Tactic.Positivity
import Mathlib.Tactic.Ring

/-!
# Rounding keeps the order

The exact value of a magnitude is `scaled mantissa exponent`. A magnitude that is not above another
one is not above it after rounding to the same decimal place either (`Magnitude.roundTo_mono`).
-/

namespace LidarSync.Decimal

/-! ## Quotients -/

/-- Rounding to the nearest natural number keeps the order of quotients. -/
theorem roundDiv_mono {n₁ d₁ n₂ d₂ : Nat} (h₁ : 0 < d₁) (h₂ : 0 < d₂) (h : n₁ * d₂ ≤ n₂ * d₁) :
    roundDiv n₁ d₁ ≤ roundDiv n₂ d₂ := by
  have hup : ∀ n d, roundDiv n d ≤ n / d + 1 := by
    intro n d
    unfold roundDiv
    dsimp only
    split_ifs <;> omega
  have hdown : ∀ n d, n / d ≤ roundDiv n d := by
    intro n d
    unfold roundDiv
    dsimp only
    split_ifs <;> omega
  have hlow : n₁ / d₁ ≤ n₂ / d₂ := by
    rw [Nat.le_div_iff_mul_le h₂]
    refine Nat.le_of_mul_le_mul_right ?_ h₁
    calc n₁ / d₁ * d₂ * d₁ = n₁ / d₁ * d₁ * d₂ := Nat.mul_right_comm _ _ _
      _ ≤ n₁ * d₂ := Nat.mul_le_mul_right d₂ (Nat.div_mul_le_self n₁ d₁)
      _ ≤ n₂ * d₁ := h
  rcases Nat.lt_or_eq_of_le hlow with hlt | heq
  · exact (hup n₁ d₁).trans (Nat.le_trans hlt (hdown n₂ d₂))
  -- Where the whole parts agree, the order is that of the remainders.
  · have hrest : n₁ % d₁ * d₂ ≤ n₂ % d₂ * d₁ := by
      have e₁ := congrArg (· * d₂) (Nat.div_add_mod n₁ d₁)
      have e₂ := congrArg (· * d₁) (Nat.div_add_mod n₂ d₂)
      rw [heq] at e₁
      simp only [Nat.add_mul] at e₁ e₂
      have hsame : d₁ * (n₂ / d₂) * d₂ = d₂ * (n₂ / d₂) * d₁ := by
        rw [Nat.mul_right_comm, Nat.mul_comm d₁ d₂, Nat.mul_right_comm]
      omega
    have hbelow : 2 * (n₂ % d₂) < d₂ → 2 * (n₁ % d₁) < d₁ := by
      intro hlt
      nlinarith
    have habove : d₁ < 2 * (n₁ % d₁) → d₂ < 2 * (n₂ % d₂) := by
      intro hlt
      nlinarith
    unfold roundDiv
    rw [heq]
    dsimp only
    split_ifs <;> omega

/-! ## Exact values -/

/-- The exact value of a mantissa with a power of two. -/
def scaled (m : Nat) (e : Int) : ℚ := m * 2 ^ e

theorem scaled_le_scaled_iff {m m' : Nat} {e : Int} : scaled m e ≤ scaled m' e ↔ m ≤ m' := by
  unfold scaled
  rw [mul_le_mul_iff_left₀ (by positivity), Nat.cast_le]

theorem scaled_mul_pow (m k : Nat) (e : Int) : scaled (m * 2 ^ k) e = scaled m (e + k) := by
  unfold scaled
  rw [zpow_add₀ (by norm_num), zpow_natCast]
  push_cast
  ring

namespace Magnitude

/-- The exact value of a magnitude. -/
def value (v : Magnitude) : ℚ := scaled v.mantissa v.exponent

variable {v w : Magnitude}

theorem inUnits_denominator_pos (v : Magnitude) (place : Int) :
    0 < (v.inUnits place).denominator :=
  Nat.mul_pos (Nat.pow_pos Nat.two_pos) (Nat.pow_pos (by decide))

theorem zpow_eq_div (a : ℚ) (ha : a ≠ 0) (e : Int) : a ^ e = a ^ e.toNat / a ^ (-e).toNat := by
  have he : e = (e.toNat : Int) - ((-e).toNat : Int) := by omega
  conv_lhs => rw [he]
  rw [zpow_sub₀ ha, zpow_natCast, zpow_natCast]

theorem inUnits_eq (v : Magnitude) (place : Int) :
    ((v.inUnits place).numerator : ℚ) / (v.inUnits place).denominator
      = v.value / (10 : ℚ) ^ place := by
  have htwo : ∀ n, ((twoTo n : Nat) : ℚ) = 2 ^ n := fun n => Nat.cast_pow 2 n
  have hten : ∀ n, ((tenTo n : Nat) : ℚ) = 10 ^ n := fun n => Nat.cast_pow 10 n
  unfold inUnits value scaled
  push_cast
  rw [htwo, htwo, hten, hten, zpow_eq_div 2 (by norm_num), zpow_eq_div 10 (by norm_num)]
  field_simp

/-- Rounding to a place keeps the order. -/
theorem roundTo_mono (h : v.value ≤ w.value) (place : Int) :
    (v.roundTo place).coefficient ≤ (w.roundTo place).coefficient := by
  have hv := v.inUnits_denominator_pos place
  have hw := w.inUnits_denominator_pos place
  refine roundDiv_mono hv hw ?_
  have hquot : ((v.inUnits place).numerator : ℚ) / (v.inUnits place).denominator
      ≤ ((w.inUnits place).numerator : ℚ) / (w.inUnits place).denominator := by
    rw [inUnits_eq, inUnits_eq]
    exact div_le_div_of_nonneg_right h (by positivity)
  rw [div_le_div_iff₀ (by exact_mod_cast hv) (by exact_mod_cast hw)] at hquot
  exact_mod_cast hquot

end Magnitude

end LidarSync.Decimal
