import LidarSync.Proofs.Decimal.Order
import LidarSync.Proofs.Decimal.Sum
import LidarSync.Proofs.Round.Delay
import LidarSync.Source.Basic

/-!
# Which frequencies have a period

The time between two messages is the quotient of one and the frequency, rounded to a double, and then
rounded again to nanoseconds. Both roundings keep the order, so the frequencies for which the result
is neither no time at all nor too long lie between two doubles (`Source.period?_isSome_iff`): the
limits are found by rounding the quotients on either side of them.
-/

namespace LidarSync

open Decimal
open Float.Model (Format UnpackedFloat)
open Float.Model.UnpackedFloat

/-! ## Doubles above zero -/

section Positive

variable {x y : Float} {m m' : Nat} {e e' : Int} {hm : 0 < m} {hm' : 0 < m'}

theorem isNaN_of_unpack (hx : x.toModel.unpack = .finite .positive m e hm) : x.isNaN = false := by
  rw [isNaN_eq_false_iff, hx]
  exact nofun

theorem canonical_of_unpack (hx : x.toModel.unpack = .finite .positive m e hm) :
    m < 0x20000000000000 ∧ -1074 ≤ e ∧ e ≤ 971 ∧ (e = -1074 ∨ 0x10000000000000 ≤ m) := by
  have hcanonical := canonical_of_isNaN (isNaN_of_unpack hx)
  rw [hx] at hcanonical
  exact hcanonical

theorem place_of_unpack (hx : x.toModel.unpack = .finite .positive m e hm) :
    place x = (e + 1074) * 0x10000000000000 + m := by
  rw [place_eq (isNaN_of_unpack hx), hx, weight_finite]
  rfl

/-- What is not above another number in place is not above it. -/
theorem scaled_le_of_place (hshort : m < 0x20000000000000) (hshort' : m' < 0x20000000000000)
    (hlow : -1074 ≤ e) (hlow' : -1074 ≤ e') (hfull : e = -1074 ∨ 0x10000000000000 ≤ m)
    (hfull' : e' = -1074 ∨ 0x10000000000000 ≤ m')
    (h : (e + 1074) * 0x10000000000000 + m ≤ (e' + 1074) * 0x10000000000000 + m') :
    scaled m e ≤ scaled m' e' := by
  have hplaced : Placed (scaled m e) _ := ⟨m, e, hshort, hlow, hfull, rfl, rfl⟩
  have hplaced' : Placed (scaled m' e') _ := ⟨m', e', hshort', hlow', hfull', rfl, rfl⟩
  exact (hplaced.le_iff hplaced').1 h

theorem scaled_le_of_le (hx : x.toModel.unpack = .finite .positive m e hm)
    (hy : y.toModel.unpack = .finite .positive m' e' hm') (h : x ≤ y) :
    scaled m e ≤ scaled m' e' := by
  obtain ⟨hshort, hlow, -, hfull⟩ := canonical_of_unpack hx
  obtain ⟨hshort', hlow', -, hfull'⟩ := canonical_of_unpack hy
  rw [le_iff_place (isNaN_of_unpack hx) (isNaN_of_unpack hy), place_of_unpack hx,
    place_of_unpack hy] at h
  exact scaled_le_of_place hshort hshort' hlow hlow' hfull hfull' h

/-- What is above a number is not below the next one. -/
theorem scaled_succ_le_of_lt (hx : x.toModel.unpack = .finite .positive m e hm)
    (hy : y.toModel.unpack = .finite .positive m' e' hm') (hroom : m + 1 < 0x20000000000000)
    (h : x < y) : scaled (m + 1) e ≤ scaled m' e' := by
  obtain ⟨-, hlow, -, hfull⟩ := canonical_of_unpack hx
  obtain ⟨hshort', hlow', -, hfull'⟩ := canonical_of_unpack hy
  rw [lt_iff_place (isNaN_of_unpack hx) (isNaN_of_unpack hy), place_of_unpack hx,
    place_of_unpack hy] at h
  refine scaled_le_of_place hroom hshort' hlow hlow' ?_ hfull' ?_
  · omega
  · push_cast
    omega

end Positive

/-! ## One over a double -/

/-- A number that has been rounded to a double, in nanoseconds. -/
def nanosOf (r : Nat) (place : Int) : Nat := ((⟨r, place, false⟩ : Magnitude).roundTo (-9)).coefficient

theorem nanosOf_mono {r r' : Nat} {place place' : Int} (h : scaled r place ≤ scaled r' place') :
    nanosOf r place ≤ nanosOf r' place' := by
  have hvalue : (⟨r, place, false⟩ : Magnitude).value ≤ (⟨r', place', false⟩ : Magnitude).value := h
  exact Magnitude.roundTo_mono hvalue _

theorem scaled_pos {m : Nat} (hm : 0 < m) (e : Int) : 0 < scaled m e := by
  unfold scaled
  positivity

/-- The largest doubles still have reciprocals above the lowest place. -/
theorem pos_of_rounds_one_div {x : Float} {m r : Nat} {e place : Int} {hm : 0 < m}
    (hx : x.toModel.unpack = .finite .positive m e hm)
    (hrounds : Rounds (1 / scaled m e) r place) : 0 < scaled r place := by
  obtain ⟨hshort, -, hhigh, -⟩ := canonical_of_unpack hx
  have hlowest : Rounds ((2 : ℚ) ^ (-1074 : Int)) 1 (-1074) :=
    ⟨⟨1, 1, Nat.one_pos, by norm_num, by rfl⟩, le_rfl,
      zpow_lt_zpow_right₀ (by norm_num) (by norm_num), Or.inl rfl⟩
  have hlarge : scaled m e ≤ (2 : ℚ) ^ (1074 : Int) := by
    have hle : (m : ℚ) ≤ (2 : ℚ) ^ (53 : Int) := by exact_mod_cast hshort.le
    calc scaled m e ≤ (2 : ℚ) ^ (53 : Int) * (2 : ℚ) ^ e :=
          mul_le_mul_of_nonneg_right hle (by positivity)
      _ = (2 : ℚ) ^ (53 + e) := (zpow_add₀ (by norm_num) _ _).symm
      _ ≤ (2 : ℚ) ^ (1074 : Int) := zpow_le_zpow_right₀ (by norm_num) (by omega)
  have hle : (2 : ℚ) ^ (-1074 : Int) ≤ 1 / scaled m e := by
    rw [zpow_neg, ← one_div]
    exact one_div_le_one_div_of_le (scaled_pos hm e) hlarge
  exact (scaled_pos Nat.one_pos _).trans_le (hlowest.mono hrounds hle)

/-- A reciprocal in nanoseconds: the exact one is rounded to a double, and what is not too large for a
double to nanoseconds. -/
theorem nanoseconds?_one_div {x : Float} {m : Nat} {e : Int} {hm : 0 < m}
    (hx : x.toModel.unpack = .finite .positive m e hm) :
    ∃ r place, Rounds (1 / scaled m e) r place ∧
      (nanoseconds? (1 / x) = some (nanosOf r place) ∨
        nanoseconds? (1 / x) = none ∧ (2 : ℚ) ^ (1024 : Int) ≤ scaled r place) := by
  have hone : (1 : Float).toModel.unpack = .finite .positive (2 ^ 52) (-52) (by decide) := by rfl
  have hvalue : scaled (2 ^ 52) (-52) = 1 := by
    unfold scaled
    norm_num
  obtain ⟨r, place, hrounds, hquotient⟩ := unpack_div hone hx
  rw [hvalue] at hrounds
  refine ⟨r, place, hrounds, ?_⟩
  rcases hquotient with hstands | ⟨hinfinite, hlarge⟩
  · left
    generalize hu : (1 / x).toModel.unpack = u at hstands
    cases hstands with
    | zero hzero => exact absurd hzero (pos_of_rounds_one_div hx hrounds).ne'
    | finite hsame _ _ _ =>
      obtain ⟨v, hv, hnanos⟩ := nanoseconds?_of_unpack hu
      have hsame : v.value = (⟨r, place, false⟩ : Magnitude).value := hv.trans hsame.symm
      rw [hnanos]
      exact congrArg some (le_antisymm (Magnitude.roundTo_mono hsame.le _)
        (Magnitude.roundTo_mono hsame.ge _))
  · refine Or.inr ⟨nanoseconds?_of_not_finite ?_, hlarge⟩
    have hfinite : (1 / x).isFinite = (1 / x).toModel.unpack.isFinite := rfl
    rw [hfinite, hinfinite]
    rfl

namespace Source

/-! ## The limits -/

/-- Once in `2 ^ 64` seconds, which is just too seldom. -/
def tooSlow : Float := 1 / 18446744073709551616

/-- Twice in a nanosecond, which is just not too often: the half nanosecond is rounded up. -/
def fastest : Float := 2000000000

theorem unpack_tooSlow :
    tooSlow.toModel.unpack = .finite .positive (2 ^ 52) (-116) (by decide) := by rfl

theorem unpack_fastest :
    fastest.toModel.unpack = .finite .positive (2000000000 * 2 ^ 22) (-22) (by decide) := by rfl

theorem rounds_tooSlow : Rounds (1 / scaled (2 ^ 52) (-116)) (2 ^ 52) 12 := by
  unfold scaled
  refine ⟨⟨2 ^ 52, 1, Nat.one_pos, ?_, by rfl⟩, by decide, ?_, Or.inr ?_⟩ <;> norm_num

theorem rounds_above_tooSlow :
    Rounds (1 / scaled (2 ^ 52 + 1) (-116)) (roundDiv (2 ^ 105) (2 ^ 52 + 1)) 11 := by
  unfold scaled
  refine ⟨⟨2 ^ 105, 2 ^ 52 + 1, by decide, ?_, rfl⟩, by decide, ?_, Or.inr ?_⟩ <;> norm_num

/-- A period that is just not too long is far from the largest double. -/
theorem above_tooSlow_lt : scaled (roundDiv (2 ^ 105) (2 ^ 52 + 1)) 11 < (2 : ℚ) ^ (1024 : Int) := by
  have hr : (roundDiv (2 ^ 105) (2 ^ 52 + 1) : ℚ) < (2 : ℚ) ^ (54 : Int) := by
    have hlt : roundDiv (2 ^ 105) (2 ^ 52 + 1) < 2 ^ 54 := by decide
    exact_mod_cast hlt
  calc scaled _ 11 < (2 : ℚ) ^ (54 : Int) * (2 : ℚ) ^ (11 : Int) :=
        mul_lt_mul_of_pos_right hr (by positivity)
    _ = (2 : ℚ) ^ (65 : Int) := (zpow_add₀ (by norm_num) _ _).symm
    _ ≤ (2 : ℚ) ^ (1024 : Int) := zpow_le_zpow_right₀ (by norm_num) (by decide)

theorem rounds_fastest :
    Rounds (1 / scaled (2000000000 * 2 ^ 22) (-22)) (roundDiv (2 ^ 83) (2 * 10 ^ 9)) (-83) := by
  unfold scaled
  refine ⟨⟨2 ^ 83, 2 * 10 ^ 9, by decide, ?_, rfl⟩, by decide, ?_, Or.inr ?_⟩ <;> norm_num

theorem rounds_above_fastest :
    Rounds (1 / scaled (2000000000 * 2 ^ 22 + 1) (-22))
      (roundDiv (2 ^ 105) (2000000000 * 2 ^ 22 + 1)) (-83) := by
  unfold scaled
  refine ⟨⟨2 ^ 105, 2000000000 * 2 ^ 22 + 1, by decide, ?_, rfl⟩, by decide, ?_, Or.inr ?_⟩ <;>
    norm_num

theorem period?_isSome_iff_nanoseconds {s : Source} :
    s.period?.isSome = true ↔
      ∃ n, nanoseconds? (1 / s.frequency) = some n ∧ 0 < n ∧ n < periodLimit := by
  unfold period?
  rw [Option.isSome_filter, Option.any_eq_true]
  simp only [decide_eq_true_eq]

/-- An infinite frequency leaves no time between two messages. -/
theorem nanoseconds?_one_div_infinity {x : Float} (hx : x.toModel.unpack = .infinity .positive) :
    nanoseconds? (1 / x) = some 0 := by
  have hquotient : 1 / x = .ofModel (.pack (div Format.binary64 (1 : Float).toModel.unpack
      x.toModel.unpack)) := rfl
  rw [hquotient, hx]
  decide +kernel

theorem not_infinity_le_fastest {x : Float} (hx : x.toModel.unpack = .infinity .positive) :
    ¬ x ≤ fastest := by
  intro hle
  have hle : UnpackedFloat.le x.toModel.unpack fastest.toModel.unpack = true := of_decide_eq_true hle
  rw [hx, unpack_fastest] at hle
  exact absurd hle (by decide)

section Limits

variable {x : Float} {m r : Nat} {e place : Int} {hm : 0 < m}
  (hx : x.toModel.unpack = .finite .positive m e hm) (hrounds : Rounds (1 / scaled m e) r place)

include hx hrounds

theorem scaled_le_of_tooSlow_lt (h : tooSlow < x) :
    scaled r place ≤ scaled (roundDiv (2 ^ 105) (2 ^ 52 + 1)) 11 := by
  have habove := scaled_succ_le_of_lt unpack_tooSlow hx (by decide) h
  exact hrounds.mono rounds_above_tooSlow (one_div_le_one_div_of_le (scaled_pos (by decide) _) habove)

theorem nanosOf_lt_periodLimit_iff : nanosOf r place < periodLimit ↔ tooSlow < x := by
  constructor
  · intro hlimit
    by_contra hle
    rw [not_lt_iff_le (isNaN_of_unpack unpack_tooSlow) (isNaN_of_unpack hx)] at hle
    have hle := one_div_le_one_div_of_le (scaled_pos hm e) (scaled_le_of_le hx unpack_tooSlow hle)
    have hlong := nanosOf_mono (rounds_tooSlow.mono hrounds hle)
    have heq : nanosOf (2 ^ 52) 12 = periodLimit := by decide
    omega
  · intro hlt
    have hlimit : nanosOf (roundDiv (2 ^ 105) (2 ^ 52 + 1)) 11 < periodLimit := by decide
    exact (nanosOf_mono (scaled_le_of_tooSlow_lt hx hrounds hlt)).trans_lt hlimit

theorem nanosOf_pos_iff : 0 < nanosOf r place ↔ x ≤ fastest := by
  constructor
  · intro hpos
    by_contra hlt
    rw [not_le_iff_lt (isNaN_of_unpack hx) (isNaN_of_unpack unpack_fastest)] at hlt
    have habove := scaled_succ_le_of_lt unpack_fastest hx (by decide) hlt
    have hle := one_div_le_one_div_of_le (scaled_pos (by decide) _) habove
    have hshort := nanosOf_mono (hrounds.mono rounds_above_fastest hle)
    have heq : nanosOf (roundDiv (2 ^ 105) (2000000000 * 2 ^ 22 + 1)) (-83) = 0 := by decide
    omega
  · intro hle
    have hle := one_div_le_one_div_of_le (scaled_pos hm e) (scaled_le_of_le hx unpack_fastest hle)
    have hlong := nanosOf_mono (rounds_fastest.mono hrounds hle)
    have heq : nanosOf (roundDiv (2 ^ 83) (2 * 10 ^ 9)) (-83) = 1 := by decide
    omega

end Limits

/-- The sources that can be started: the frequency is above `tooSlow` and at most `fastest`. -/
theorem period?_isSome_iff {s : Source} (h : 0 < s.frequency) :
    s.period?.isSome = true ↔ tooSlow < s.frequency ∧ s.frequency ≤ fastest := by
  rw [period?_isSome_iff_nanoseconds]
  rcases unpack_of_pos h with ⟨m, e, hm, hx⟩ | hinf
  swap
  · rw [nanoseconds?_one_div_infinity hinf]
    refine iff_of_false ?_ fun hrange => not_infinity_le_fastest hinf hrange.2
    rintro ⟨n, hn, hpos, -⟩
    exact absurd (Option.some.inj hn) hpos.ne
  obtain ⟨r, place, hrounds, hnanos⟩ := nanoseconds?_one_div hx
  rw [← nanosOf_lt_periodLimit_iff hx hrounds, ← nanosOf_pos_iff hx hrounds]
  constructor
  · rintro ⟨n, hn, hpos, hlimit⟩
    rcases hnanos with hsome | ⟨hnone, -⟩
    · obtain rfl := Option.some.inj (hsome.symm.trans hn)
      exact ⟨hlimit, hpos⟩
    · exact absurd (hnone.symm.trans hn) nofun
  · rintro ⟨hlimit, hpos⟩
    rcases hnanos with hsome | ⟨-, hlarge⟩
    · exact ⟨nanosOf r place, hsome, hpos, hlimit⟩
    · have hslow := (nanosOf_lt_periodLimit_iff hx hrounds).1 hlimit
      have hle := hlarge.trans (scaled_le_of_tooSlow_lt hx hrounds hslow)
      exact absurd hle (not_le_of_gt above_tooSlow_lt)

end Source

end LidarSync
