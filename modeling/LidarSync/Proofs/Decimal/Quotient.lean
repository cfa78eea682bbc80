import LidarSync.Proofs.Decimal.Difference

/-!
# The quotient of two doubles

A division leaves the whole part of a quotient and two bits about the rest, and rounding these is
rounding the quotient itself (`Remains.roundedMantissa_eq`). So the quotient of two positive doubles
is the exact one, rounded to a whole number of units in its last place (`unpack_div`). Rounding keeps
the order of the exact quotients (`Rounds.mono`), also where they have different last places.
-/

namespace LidarSync.Decimal

open Float.Model (Format UnpackedFloat totalExponent)
open Float.Model.UnpackedFloat

/-! ## What a division leaves -/

/-- What is left of a quotient: its whole part, whether the rest is at least a half, and whether the
rest is more than nothing and not just a half. -/
structure Remains (em : ExtendedMantissa) (n d : Nat) : Prop where
  mantissa_eq : em.mantissa = n / d
  roundBit_iff : em.roundBit = true ↔ d ≤ 2 * (n % d)
  stickyBit_iff : em.stickyBit = true ↔ n % d ≠ 0 ∧ 2 * (n % d) ≠ d

variable {em : ExtendedMantissa} {n d : Nat}

theorem remains_accuracy (n : Nat) (hd : 0 < d) :
    Remains (.ofMantissaAndAccuracy (n / d) (accuracyOfFraction (n % d) d)) n d := by
  unfold accuracyOfFraction
  by_cases hnone : n % d = 0
  · rw [if_pos hnone]
    exact ⟨rfl, iff_of_false nofun (by omega), iff_of_false nofun (by omega)⟩
  · rw [if_neg hnone]
    rcases lt_trichotomy (2 * (n % d)) d with hlt | heq | hgt
    · rw [compare_lt_iff_lt.2 hlt]
      exact ⟨rfl, iff_of_false nofun (by omega), iff_of_true rfl (by omega)⟩
    · rw [compare_eq_iff_eq.2 heq]
      exact ⟨rfl, iff_of_true rfl (by omega), iff_of_false nofun (by omega)⟩
    · rw [compare_gt_iff_gt.2 hgt]
      exact ⟨rfl, iff_of_true rfl (by omega), iff_of_true rfl (by omega)⟩

namespace Remains

theorem shiftRightOne (h : Remains em n d) (hd : 0 < d) : Remains em.shiftRightOne n (d * 2) := by
  have hrest : n % (d * 2) = n % d + d * (n / d % 2) := Nat.mod_mul
  have hlt : n % d < d := Nat.mod_lt n hd
  have hbit : n / d % 2 = 0 ∨ n / d % 2 = 1 := Nat.mod_two_eq_zero_or_one _
  constructor
  · change em.mantissa / 2 = _
    rw [h.mantissa_eq, Nat.div_div_eq_div_mul]
  · change (em.mantissa % 2 != 0) = true ↔ _
    rw [h.mantissa_eq, bne_iff_ne, hrest]
    rcases hbit with hbit | hbit
    · rw [hbit]
      omega
    · rw [hbit]
      omega
  · change (em.roundBit || em.stickyBit) = true ↔ _
    rw [Bool.or_eq_true_iff, h.roundBit_iff, h.stickyBit_iff, hrest]
    rcases hbit with hbit | hbit
    · rw [hbit]
      omega
    · rw [hbit]
      omega

theorem shiftRight (h : Remains em n d) (hd : 0 < d) (k : Nat) :
    Remains (em >>> k) n (d * 2 ^ k) := by
  induction k with
  | zero =>
    rw [Nat.pow_zero, Nat.mul_one]
    exact h
  | succ k ih =>
    rw [Nat.pow_succ, ← Nat.mul_assoc]
    exact ih.shiftRightOne (Nat.mul_pos hd (Nat.two_pow_pos k))

/-- Rounding what is left of a quotient is rounding the quotient. -/
theorem roundedMantissa_eq (h : Remains em n d) : em.roundedMantissa = roundDiv n d := by
  obtain ⟨m, roundBit, stickyBit⟩ := em
  obtain ⟨hmantissa, hround, hsticky⟩ := h
  dsimp only at hmantissa hround hsticky
  subst hmantissa
  unfold roundDiv
  dsimp only
  cases roundBit with
  | false =>
    have hsmall : 2 * (n % d) < d := by
      by_contra hle
      exact absurd (hround.2 (Nat.le_of_not_lt hle)) nofun
    rw [if_pos hsmall]
    cases stickyBit <;> rfl
  | true =>
    have hlarge : d ≤ 2 * (n % d) := hround.1 rfl
    rw [if_neg (Nat.not_lt_of_le hlarge)]
    cases stickyBit with
    | true =>
      obtain ⟨-, hne⟩ := hsticky.1 rfl
      rw [if_pos (Nat.lt_of_le_of_ne hlarge hne.symm)]
      rfl
    | false =>
      have hhalf : ¬ d < 2 * (n % d) := by
        intro hlt
        exact absurd (hsticky.2 ⟨by omega, by omega⟩) nofun
      rw [if_neg hhalf]
      change n / d + n / d % 2 = _
      split <;> omega

end Remains

/-! ## Rounding an exact number -/

/-- A number rounded to a whole number of units in the last place that a double as large has. -/
structure Rounds (q : ℚ) (r : Nat) (place : Int) : Prop where
  nearest : ∃ n d : Nat, 0 < d ∧ q = n / d * 2 ^ place ∧ r = roundDiv n d
  low : -1074 ≤ place
  fits : q < 2 ^ (place + 53)
  long : place = -1074 ∨ 2 ^ (place + 52) ≤ q

namespace Rounds

variable {q q' : ℚ} {r r' : Nat} {place place' : Int}

theorem le_of_fits (h : Rounds q r place) : r ≤ 2 ^ 53 := by
  obtain ⟨n, d, hd, rfl, rfl⟩ := h.nearest
  have hfits := h.fits
  have hpow : (0 : ℚ) < 2 ^ place := by positivity
  rw [add_comm, zpow_add₀ (by norm_num), mul_lt_mul_iff_of_pos_right hpow,
    div_lt_iff₀ (by exact_mod_cast hd)] at hfits
  have hlt : n < 2 ^ 53 * d := by exact_mod_cast hfits
  calc roundDiv n d ≤ roundDiv (2 ^ 53) 1 := roundDiv_mono hd Nat.one_pos (by omega)
    _ = 2 ^ 53 := by rfl

theorem le_of_long (h : Rounds q r place) (hlong : 2 ^ (place + 52) ≤ q) : 2 ^ 52 ≤ r := by
  obtain ⟨n, d, hd, rfl, rfl⟩ := h.nearest
  have hpow : (0 : ℚ) < 2 ^ place := by positivity
  rw [add_comm, zpow_add₀ (by norm_num), mul_le_mul_iff_of_pos_right hpow,
    le_div_iff₀ (by exact_mod_cast hd)] at hlong
  have hle : 2 ^ 52 * d ≤ n := by exact_mod_cast hlong
  calc 2 ^ 52 = roundDiv (2 ^ 52) 1 := by rfl
    _ ≤ roundDiv n d := roundDiv_mono Nat.one_pos hd (by omega)

/-- Rounding keeps the order, also across different last places: where the places differ, a power of
two stands between the numbers. -/
theorem mono (h : Rounds q r place) (h' : Rounds q' r' place') (hle : q ≤ q') :
    scaled r place ≤ scaled r' place' := by
  have hpower : ∀ (b : Nat) (k : Int), (2 : ℚ) ^ b * 2 ^ k = 2 ^ (k + b) := by
    intro b k
    rw [add_comm, zpow_add₀ (by norm_num), zpow_natCast]
  have hmono : ∀ {a b : Int}, a ≤ b → (2 : ℚ) ^ a ≤ 2 ^ b :=
    fun h => zpow_le_zpow_right₀ (by norm_num) h
  rcases lt_trichotomy place place' with hlt | rfl | hgt
  · have hlong := h'.long.resolve_left (by have := h.low; omega)
    have hr : (r : ℚ) ≤ 2 ^ 53 := by exact_mod_cast h.le_of_fits
    have hr' : (2 : ℚ) ^ 52 ≤ r' := by exact_mod_cast h'.le_of_long hlong
    calc scaled r place ≤ 2 ^ 53 * 2 ^ place := mul_le_mul_of_nonneg_right hr (by positivity)
      _ = 2 ^ (place + 53) := hpower 53 place
      _ ≤ 2 ^ (place' + 52) := hmono (by omega)
      _ = 2 ^ 52 * 2 ^ place' := (hpower 52 place').symm
      _ ≤ scaled r' place' := mul_le_mul_of_nonneg_right hr' (by positivity)
  · rw [scaled_le_scaled_iff]
    obtain ⟨n, d, hd, rfl, rfl⟩ := h.nearest
    obtain ⟨n', d', hd', rfl, rfl⟩ := h'.nearest
    have hpow : (0 : ℚ) < 2 ^ place := by positivity
    rw [mul_le_mul_iff_of_pos_right hpow,
      div_le_div_iff₀ (by exact_mod_cast hd) (by exact_mod_cast hd')] at hle
    exact roundDiv_mono hd hd' (by exact_mod_cast hle)
  · have hlong := h.long.resolve_left (by have := h'.low; omega)
    have hsmall : q' < 2 ^ (place + 52) := h'.fits.trans_le (hmono (by omega))
    exact absurd (hlong.trans hle) (not_le_of_gt hsmall)

end Rounds

/-! ## Rounding to the format -/

/-- A double that stands for what was rounded: zero, or a mantissa as long as its exponent allows. -/
inductive Stands (s : Sign) (x : ℚ) : UnpackedFloat → Prop where
  | zero (hx : x = 0) : Stands s x (.zero s)
  | finite {m : Nat} {e : Int} {hm : 0 < m} (hx : x = scaled m e) (hlong : m < 2 ^ 53)
      (hlow : -1074 ≤ e) (hfull : e = -1074 ∨ 2 ^ 52 ≤ m) : Stands s x (.finite s m e hm)

theorem log2_le_of_lt {m : Nat} (h : m < 2 ^ 53) : m.log2 ≤ 52 := by
  by_cases hm : m = 0
  · subst hm
    decide
  · exact Nat.le_of_lt_succ ((Nat.log2_lt hm).2 h)

/-- The shift after rounding: only a mantissa that has become a power of two is shifted, and nothing
is lost. -/
theorem shiftToTargetExponent_rounded {m : Nat} {e : Int} (hm : m ≤ 2 ^ 53) (he : -1074 ≤ e) :
    m < 2 ^ 53 ∧ shiftToTargetExponent Format.binary64 m e .exact = (⟨m, false, false⟩, e) ∨
    m = 2 ^ 53 ∧
      shiftToTargetExponent Format.binary64 m e .exact = (⟨2 ^ 52, false, false⟩, e + 1) := by
  rcases Nat.lt_or_eq_of_le hm with hlt | rfl
  · have hlog := log2_le_of_lt hlt
    have hnone : (Format.binary64.targetExponent (totalExponent m e) - e).toNat = 0 := by
      rw [targetExponent_eq]
      unfold totalExponent
      omega
    rw [shiftToTargetExponent_eq, hnone]
    exact Or.inl ⟨hlt, Prod.ext rfl (Int.add_zero e)⟩
  · have hlog : (2 ^ 53 : Nat).log2 = 53 := by rfl
    have hone : (Format.binary64.targetExponent (totalExponent (2 ^ 53) e) - e).toNat = 1 := by
      rw [targetExponent_eq]
      unfold totalExponent
      rw [hlog]
      omega
    rw [shiftToTargetExponent_eq, hone]
    exact Or.inr ⟨rfl, rfl⟩

/-- What a rounded mantissa stands for. -/
theorem stands_roundWithAccuracy (s : Sign) {m : Nat} {e place : Int} {acc : Accuracy}
    (hshift : shiftToTargetExponent Format.binary64 m e acc = (em, place))
    (hle : em.roundedMantissa ≤ 2 ^ 53) (hlow : -1074 ≤ place)
    (hfull : place = -1074 ∨ 2 ^ 52 ≤ em.roundedMantissa) :
    Stands s (scaled em.roundedMantissa place) (roundWithAccuracy Format.binary64 s m e acc) := by
  unfold roundWithAccuracy
  rw [hshift]
  dsimp only
  generalize em.roundedMantissa = r at hle hfull ⊢
  rcases shiftToTargetExponent_rounded hle hlow with ⟨hlt, heq⟩ | ⟨rfl, heq⟩
  · rw [heq]
    dsimp only
    by_cases hzero : r = 0
    · rw [dif_pos hzero]
      refine .zero ?_
      rw [hzero]
      exact zero_mul _
    · rw [dif_neg hzero]
      exact .finite rfl hlt hlow hfull
  · rw [heq]
    dsimp only
    rw [dif_neg (by decide)]
    refine .finite ?_ (by decide) (by omega) (Or.inr le_rfl)
    exact scaled_mul_pow (2 ^ 52) 1 place

/-- What stands for a number is unpacked as it was packed, or it is infinity, where the number is too
large. -/
theorem Stands.unpack_pack {s : Sign} {x : ℚ} {u : UnpackedFloat} (h : Stands s x u) :
    unpack Format.binary64 (pack _ u) = u ∧ x < 2 ^ (1024 : Int) ∨
      unpack Format.binary64 (pack _ u) = .infinity s ∧ 2 ^ (1024 : Int) ≤ x := by
  have hpower : ∀ a b : Int, a + b = 1024 → (2 : ℚ) ^ (1024 : Int) = 2 ^ a * 2 ^ b := by
    intro a b hab
    rw [← zpow_add₀ (by norm_num), hab]
  cases h with
  | zero hx =>
    refine Or.inl ⟨unpack_packedZero s, ?_⟩
    rw [hx]
    positivity
  | @finite m e hm hx hshort hlow hfull =>
    rw [hx]
    by_cases hhigh : e ≤ 971
    · refine Or.inl ⟨unpack_pack_eq s m e hm hshort hlow hhigh hfull, ?_⟩
      have hmantissa : (m : ℚ) < (2 : ℚ) ^ (53 : Int) := by exact_mod_cast hshort
      rw [hpower 53 971 rfl]
      exact mul_lt_mul hmantissa (zpow_le_zpow_right₀ (by norm_num) (by omega))
        (by positivity) (by positivity)
    · refine Or.inr ⟨unpack_pack_overflow s m e hm (by omega), ?_⟩
      have hmantissa : (2 : ℚ) ^ (52 : Int) ≤ m := by
        exact_mod_cast hfull.resolve_left (by omega)
      rw [hpower 52 972 rfl]
      exact mul_le_mul hmantissa (zpow_le_zpow_right₀ (by norm_num) (by omega))
        (by positivity) (by positivity)

/-! The leading bit of the whole part is that of the quotient. -/

theorem quotient_lt (hd : 0 < d) : (n : ℚ) / d < 2 ^ (((n / d).log2 : Int) + 1) := by
  have hlt : n / d < 2 ^ ((n / d).log2 + 1) := Nat.lt_log2_self
  have hn : n < 2 ^ ((n / d).log2 + 1) * d := (Nat.div_lt_iff_lt_mul hd).1 hlt
  rw [div_lt_iff₀ (by exact_mod_cast hd)]
  exact_mod_cast hn

theorem le_quotient (hd : 0 < d) (hne : n / d ≠ 0) : (2 : ℚ) ^ ((n / d).log2 : Int) ≤ n / d := by
  have hle : 2 ^ (n / d).log2 ≤ n / d := Nat.log2_self_le hne
  have hn : 2 ^ (n / d).log2 * d ≤ n := (Nat.le_div_iff_mul_le hd).1 hle
  rw [le_div_iff₀ (by exact_mod_cast hd)]
  exact_mod_cast hn

/-- A quotient rounded where a double with its leading bit has its last place. -/
theorem rounds_quotient {e place : Int} (hd : 0 < d) (hlong : 52 ≤ (n / d).log2 ∨ e ≤ -1074)
    (hplace : place = max (((n / d).log2 : Int) + e - 52) (-1074)) :
    Rounds (n / d * 2 ^ e) (roundDiv n (d * 2 ^ (place - e).toNat)) place := by
  have hpow : ∀ k : Int, (0 : ℚ) < 2 ^ k := fun k => by positivity
  have hle : e ≤ place := by
    rcases hlong with hlong | hlong <;> omega
  have hback : e + ((place - e).toNat : Int) = place := by omega
  refine ⟨⟨n, d * 2 ^ (place - e).toNat, Nat.mul_pos hd (Nat.two_pow_pos _), ?_, rfl⟩,
    by omega, ?_, ?_⟩
  · push_cast
    rw [← zpow_natCast, show (2 : ℚ) ^ place = 2 ^ e * 2 ^ ((place - e).toNat : Int) by
      rw [← zpow_add₀ (by norm_num), hback]]
    have hne := (hpow ((place - e).toNat : Int)).ne'
    field_simp
  · calc (n : ℚ) / d * 2 ^ e < 2 ^ (((n / d).log2 : Int) + 1) * 2 ^ e :=
          mul_lt_mul_of_pos_right (quotient_lt hd) (hpow e)
      _ = 2 ^ (((n / d).log2 : Int) + 1 + e) := (zpow_add₀ (by norm_num) _ _).symm
      _ ≤ 2 ^ (place + 53) := zpow_le_zpow_right₀ (by norm_num) (by omega)
  · by_cases hbottom : place = -1074
    · exact Or.inl hbottom
    · right
      have hne : n / d ≠ 0 := by
        intro hzero
        rw [hzero] at hplace hlong
        have hlog : (0 : Nat).log2 = 0 := by rfl
        omega
      calc (2 : ℚ) ^ (place + 52) = 2 ^ (((n / d).log2 : Int) + e) := by
            congr 1
            omega
        _ = 2 ^ ((n / d).log2 : Int) * 2 ^ e := zpow_add₀ (by norm_num) _ _
        _ ≤ n / d * 2 ^ e := mul_le_mul_of_nonneg_right (le_quotient hd hne) (hpow e).le

/-- Rounding what a division leaves of a quotient is rounding the exact quotient. -/
theorem roundWithAccuracy_rounds (s : Sign) {e : Int} (hd : 0 < d)
    (hlong : 52 ≤ (n / d).log2 ∨ e ≤ -1074) :
    ∃ r place, Rounds (n / d * 2 ^ e) r place ∧
      Stands s (scaled r place) (roundWithAccuracy Format.binary64 s (n / d) e
        (accuracyOfFraction (n % d) d)) := by
  generalize htarget : Format.binary64.targetExponent (totalExponent (n / d) e) = place
  have hplace : place = max (((n / d).log2 : Int) + e - 52) (-1074) := by
    rw [← htarget, targetExponent_eq]
    unfold totalExponent
    omega
  have hrounds := rounds_quotient hd hlong hplace
  refine ⟨_, place, hrounds, ?_⟩
  have hshift : shiftToTargetExponent Format.binary64 (n / d) e (accuracyOfFraction (n % d) d)
      = (ExtendedMantissa.ofMantissaAndAccuracy (n / d) (accuracyOfFraction (n % d) d)
          >>> (place - e).toNat, place) := by
    have hback : e + ((place - e).toNat : Int) = place := by
      rcases hlong with hlong | hlong <;> omega
    unfold shiftToTargetExponent shiftToExponent
    rw [htarget]
    dsimp only
    rw [hback]
  have hrounded := ((remains_accuracy n hd).shiftRight hd (place - e).toNat).roundedMantissa_eq
  rw [← hrounded] at hrounds ⊢
  exact stands_roundWithAccuracy s hshift hrounds.le_of_fits hrounds.low
    (hrounds.long.imp_right hrounds.le_of_long)

/-! ## Division -/

/-- The exact quotient of two mantissas, the first one shifted so far that the whole part has enough
bits. -/
theorem div_eq {m n : Nat} {e g : Int} (hm : 0 < m) (hn : 0 < n) :
    ∃ k : Nat, ∃ t : Int, (m : ℚ) / n * 2 ^ (e - g) = (m * 2 ^ k : Nat) / n * 2 ^ t ∧
      (52 ≤ (m * 2 ^ k / n).log2 ∨ t ≤ -1074) ∧
      div Format.binary64 (.finite .positive m e hm) (.finite .positive n g hn)
        = roundWithAccuracy Format.binary64 .positive (m * 2 ^ k / n) t
          (accuracyOfFraction (m * 2 ^ k % n) n) := by
  generalize ht : min (e - g)
    (Format.binary64.targetExponent (totalExponent m e - totalExponent n g)) = t
  have hle : t ≤ e - g := ht ▸ min_le_left _ _
  refine ⟨(e - g - t).toNat, t, ?_, ?_, ?_⟩
  · have hback : e - g = ((e - g - t).toNat : Int) + t := by omega
    conv_lhs => rw [hback, zpow_add₀ (by norm_num), zpow_natCast]
    push_cast
    ring
  · by_cases hbottom : t ≤ -1074
    · exact Or.inr hbottom
    · left
      have htarget : t ≤ (m.log2 : Int) + e - (n.log2 + g) - 53 := by
        rw [targetExponent_eq] at ht
        unfold totalExponent at ht
        omega
      have hlow : 2 ^ m.log2 ≤ m := Nat.log2_self_le hm.ne'
      have hhigh : n ≤ 2 ^ (n.log2 + 1) := Nat.lt_log2_self.le
      have hwhole : 2 ^ 52 ≤ m * 2 ^ (e - g - t).toNat / n := by
        rw [Nat.le_div_iff_mul_le hn]
        calc 2 ^ 52 * n ≤ 2 ^ 52 * 2 ^ (n.log2 + 1) := Nat.mul_le_mul_left _ hhigh
          _ = 2 ^ (52 + (n.log2 + 1)) := (Nat.pow_add 2 _ _).symm
          _ ≤ 2 ^ (m.log2 + (e - g - t).toNat) := Nat.pow_le_pow_right Nat.two_pos (by omega)
          _ = 2 ^ m.log2 * 2 ^ (e - g - t).toNat := Nat.pow_add 2 _ _
          _ ≤ m * 2 ^ (e - g - t).toNat := Nat.mul_le_mul_right _ hlow
      exact (Nat.le_log2 (by omega)).2 hwhole
  · rw [← Nat.shiftLeft_eq, ← ht]
    rfl

theorem scaled_div_scaled (m : Nat) {n : Nat} (e g : Int) (hn : 0 < n) :
    scaled m e / scaled n g = (m : ℚ) / n * 2 ^ (e - g) := by
  rw [zpow_sub₀ (by norm_num)]
  unfold scaled
  have hne : (n : ℚ) ≠ 0 := by exact_mod_cast hn.ne'
  have hpow : (2 : ℚ) ^ g ≠ 0 := (zpow_pos (by norm_num) g).ne'
  field_simp

/-- The quotient of two positive doubles is the exact quotient rounded, unless that is too large for
a double. -/
theorem unpack_div {a b : Float} {m n : Nat} {e g : Int} {hm : 0 < m} {hn : 0 < n}
    (ha : a.toModel.unpack = .finite .positive m e hm)
    (hb : b.toModel.unpack = .finite .positive n g hn) :
    ∃ r place, Rounds (scaled m e / scaled n g) r place ∧
      (Stands .positive (scaled r place) (a / b).toModel.unpack ∨
        (a / b).toModel.unpack = .infinity .positive ∧ (2 : ℚ) ^ (1024 : Int) ≤ scaled r place) := by
  obtain ⟨k, t, hvalue, hlong, hdiv⟩ := div_eq (e := e) (g := g) hm hn
  obtain ⟨r, place, hrounds, hstands⟩ := roundWithAccuracy_rounds .positive hn hlong
  have hquotient := (scaled_div_scaled m e g hn).trans hvalue
  refine ⟨r, place, hquotient ▸ hrounds, ?_⟩
  have hmodel : (a / b).toModel = .pack (div Format.binary64 a.toModel.unpack b.toModel.unpack) :=
    rfl
  rw [ha, hb, hdiv] at hmodel
  have hunpack : (a / b).toModel.unpack = unpack Format.binary64 (pack Format.binary64
      (roundWithAccuracy Format.binary64 .positive (m * 2 ^ k / n) t
        (accuracyOfFraction (m * 2 ^ k % n) n))) := by
    rw [hmodel]
    rfl
  rw [hunpack]
  rcases hstands.unpack_pack with ⟨heq, -⟩ | hinfinite
  · rw [heq]
    exact Or.inl hstands
  · exact Or.inr hinfinite

end LidarSync.Decimal
