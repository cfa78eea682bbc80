import LidarSync.Proofs.Decimal.Double

/-!
# The difference of two doubles

Rounding never takes a number over a double that is not below it (`round_le`): such a double is a
whole number of units in the last place of the rounded one. Hence a double less one that is not
negative is not above it (`unpack_sub`).
-/

namespace LidarSync.Decimal

open Float.Model (Format UnpackedFloat totalExponent)
open Float.Model.UnpackedFloat

/-! ## Shifting a mantissa -/

/-- What is left of a number after a shift to the right: it is not above the number, and below it
once a bit was lost. -/
def Below (em : ExtendedMantissa) (k n : Nat) : Prop :=
  em.mantissa * 2 ^ k ≤ n ∧ ((em.roundBit || em.stickyBit) = true → em.mantissa * 2 ^ k < n)

variable {em : ExtendedMantissa} {k n : Nat}

theorem Below.shiftRightOne (h : Below em k n) : Below em.shiftRightOne (k + 1) n := by
  obtain ⟨hle, hlt⟩ := h
  have hhalf : em.mantissa / 2 * 2 ^ (k + 1) = em.mantissa / 2 * 2 * 2 ^ k := by ring
  have hdown : em.mantissa / 2 * 2 * 2 ^ k ≤ em.mantissa * 2 ^ k :=
    Nat.mul_le_mul_right _ (Nat.div_mul_le_self em.mantissa 2)
  refine ⟨?_, fun hbits => ?_⟩
  · change em.mantissa / 2 * 2 ^ (k + 1) ≤ n
    omega
  · change em.mantissa / 2 * 2 ^ (k + 1) < n
    rcases Bool.or_eq_true_iff.1 hbits with hround | hsticky
    · have hodd : em.mantissa / 2 * 2 < em.mantissa := by
        have hne : em.mantissa % 2 ≠ 0 := bne_iff_ne.1 hround
        omega
      have hstrict := Nat.mul_lt_mul_of_pos_right hodd (Nat.two_pow_pos k)
      omega
    · have hstrict := hlt hsticky
      omega

theorem below_shiftRight (n k : Nat) : Below ((⟨n, false, false⟩ : ExtendedMantissa) >>> k) k n := by
  induction k with
  | zero => exact ⟨le_of_eq (Nat.mul_one n), nofun⟩
  | succ k ih => exact ih.shiftRightOne

/-- Rounding what is left does not go over a whole number that is not below the shifted one. -/
theorem Below.roundedMantissa_le (h : Below em k n) {bound : Nat} (hn : n ≤ bound * 2 ^ k) :
    em.roundedMantissa ≤ bound := by
  obtain ⟨hle, hlt⟩ := h
  have hfloor : em.mantissa ≤ bound := Nat.le_of_mul_le_mul_right (hle.trans hn) (Nat.two_pow_pos k)
  have hceil : (em.roundBit || em.stickyBit) = true → em.mantissa + 1 ≤ bound := fun hbits =>
    Nat.lt_of_mul_lt_mul_right (lt_of_lt_of_le (hlt hbits) hn)
  obtain ⟨m, roundBit, stickyBit⟩ := em
  cases roundBit with
  | false =>
    cases stickyBit with
    | false => exact hfloor
    | true => exact hfloor
  | true =>
    have hup : m + 1 ≤ bound := hceil rfl
    cases stickyBit with
    | false =>
      change m + m % 2 ≤ bound
      omega
    | true => exact hup

/-! ## Rounding to the format -/

theorem targetExponent_eq (t : Int) : Format.binary64.targetExponent t = max (t - 53) (-1074) := rfl

theorem targetExponent_le {m m' : Nat} {e e' : Int} (hm : 0 < m) (hm' : m' < 2 ^ 53)
    (he' : -1074 ≤ e') (h : scaled m e ≤ scaled m' e') :
    Format.binary64.targetExponent (totalExponent m e) ≤ e' := by
  have hlow : (2 : ℚ) ^ ((m.log2 : Int) + e) ≤ scaled m e := by
    unfold scaled
    rw [zpow_add₀ (by norm_num), zpow_natCast]
    refine mul_le_mul_of_nonneg_right ?_ (by positivity)
    exact_mod_cast Nat.log2_self_le hm.ne'
  have hhigh : scaled m' e' < (2 : ℚ) ^ ((53 : Int) + e') := by
    unfold scaled
    rw [zpow_add₀ (by norm_num)]
    refine mul_lt_mul_of_pos_right ?_ (by positivity)
    exact_mod_cast hm'
  have hlog : (m.log2 : Int) + e < 53 + e' :=
    (zpow_lt_zpow_iff_right₀ (by norm_num)).1 (lt_of_le_of_lt (hlow.trans h) hhigh)
  rw [targetExponent_eq]
  unfold totalExponent
  omega

theorem shiftToTargetExponent_eq {m : Nat} {e : Int} :
    shiftToTargetExponent Format.binary64 m e .exact
      = ((⟨m, false, false⟩ : ExtendedMantissa)
          >>> (Format.binary64.targetExponent (totalExponent m e) - e).toNat,
        e + (Format.binary64.targetExponent (totalExponent m e) - e).toNat) := rfl

/-- Rounding shifts to the target exponent, rounds what is left, and shifts once more. -/
theorem roundWithAccuracy_cases (s : Sign) {m : Nat} {e : Int} {first last : ExtendedMantissa × Int}
    (hfirst : shiftToTargetExponent Format.binary64 m e .exact = first)
    (hlast : shiftToTargetExponent Format.binary64 first.1.roundedMantissa first.2 .exact = last) :
    roundWithAccuracy Format.binary64 s m e .exact = .zero s ∨
      ∃ hf, roundWithAccuracy Format.binary64 s m e .exact
        = .finite s last.1.mantissa last.2 hf := by
  subst hfirst
  subst hlast
  by_cases hnone : (shiftToTargetExponent Format.binary64
      (shiftToTargetExponent Format.binary64 m e .exact).1.roundedMantissa
      (shiftToTargetExponent Format.binary64 m e .exact).2 .exact).1.mantissa = 0
  · exact Or.inl (dif_pos hnone)
  · exact Or.inr ⟨Nat.pos_of_ne_zero hnone, dif_neg hnone⟩

/-- Rounding does not take a number over a double that is not below it. -/
theorem roundWithAccuracy_le {s : Sign} {m m' : Nat} {e e' : Int} (hm : 0 < m) (hm' : m' < 2 ^ 53)
    (he' : -1074 ≤ e') (h : scaled m e ≤ scaled m' e')
    (he : e ≤ Format.binary64.targetExponent (totalExponent m e)) :
    roundWithAccuracy Format.binary64 s m e .exact = .zero s ∨
      ∃ f g hf, roundWithAccuracy Format.binary64 s m e .exact = .finite s f g hf ∧
        scaled f g ≤ scaled m' e' ∧ -1074 ≤ g ∧ g ≤ e' := by
  have hte : Format.binary64.targetExponent (totalExponent m e) ≤ e' :=
    targetExponent_le hm hm' he' h
  have hlow : -1074 ≤ Format.binary64.targetExponent (totalExponent m e) := by
    rw [targetExponent_eq]
    exact le_max_right _ _
  rcases roundWithAccuracy_cases s shiftToTargetExponent_eq shiftToTargetExponent_eq with
    hzero | ⟨hf, heq⟩
  · exact Or.inl hzero
  · refine Or.inr ⟨_, _, hf, heq, ?_⟩
    clear heq
    dsimp only at hf ⊢
    generalize Format.binary64.targetExponent (totalExponent m e) = te at he hte hlow hf ⊢
    -- The double is a whole number of units in the last place.
    have hbound : scaled m' e' = scaled (m' * 2 ^ (e' - te).toNat) te := by
      rw [scaled_mul_pow]
      exact congrArg (scaled m') (by omega)
    have hback : e + ((te - e).toNat : Int) = te := by omega
    have hunits : m ≤ m' * 2 ^ (e' - te).toNat * 2 ^ (te - e).toNat := by
      rw [← scaled_le_scaled_iff, scaled_mul_pow, hback, ← hbound]
      exact h
    have hrounded := (below_shiftRight m (te - e).toNat).roundedMantissa_le hunits
    rw [hback] at hf ⊢
    generalize ((⟨m, false, false⟩ : ExtendedMantissa) >>> (te - e).toNat).roundedMantissa = r
      at hrounded hf ⊢
    have hr : scaled r te ≤ scaled m' e' := by
      rw [hbound]
      exact scaled_le_scaled_iff.2 hrounded
    obtain ⟨hle, _⟩ :=
      below_shiftRight r (Format.binary64.targetExponent (totalExponent r te) - te).toNat
    have hrpos : 0 < r := (Nat.mul_pos hf (Nat.two_pow_pos _)).trans_le hle
    have hte' := targetExponent_le hrpos hm' he' hr
    refine ⟨?_, by omega, by omega⟩
    rw [← scaled_mul_pow]
    exact (scaled_le_scaled_iff.2 hle).trans hr

theorem round_eq (s : Sign) (m : Nat) (e : Int) :
    UnpackedFloat.round Format.binary64 s m e = roundWithAccuracy Format.binary64 s
      (m * 2 ^ (e - Format.binary64.targetExponent (totalExponent m e)).toNat)
      (e - (e - Format.binary64.targetExponent (totalExponent m e)).toNat) .exact := by
  rw [← Nat.shiftLeft_eq]
  rfl

theorem round_le {s : Sign} {m m' : Nat} {e e' : Int} (hm : 0 < m) (hm' : m' < 2 ^ 53)
    (he' : -1074 ≤ e') (h : scaled m e ≤ scaled m' e') :
    UnpackedFloat.round Format.binary64 s m e = .zero s ∨
      ∃ f g hf, UnpackedFloat.round Format.binary64 s m e = .finite s f g hf ∧
        scaled f g ≤ scaled m' e' ∧ -1074 ≤ g ∧ g ≤ e' := by
  rw [round_eq]
  generalize hj : (e - Format.binary64.targetExponent (totalExponent m e)).toNat = j
  have hpos : 0 < m * 2 ^ j := Nat.mul_pos hm (Nat.two_pow_pos j)
  refine roundWithAccuracy_le hpos hm' he' ?_ ?_
  · rw [scaled_mul_pow, Int.sub_add_cancel]
    exact h
  · have hlog : m.log2 + j ≤ (m * 2 ^ j).log2 := by
      rw [Nat.le_log2 hpos.ne', Nat.pow_add]
      exact Nat.mul_le_mul_right _ (Nat.log2_self_le hm.ne')
    rw [targetExponent_eq] at hj ⊢
    unfold totalExponent at hj ⊢
    omega

/-! ## Subtraction -/

theorem round_sign (s : Sign) (m : Nat) (e : Int) :
    UnpackedFloat.round Format.binary64 s m e = .zero s ∨
      ∃ f g hf, UnpackedFloat.round Format.binary64 s m e = .finite s f g hf := by
  rw [round_eq]
  rcases roundWithAccuracy_cases s rfl rfl with hzero | ⟨hf, heq⟩
  · exact Or.inl hzero
  · exact Or.inr ⟨_, _, hf, heq⟩

theorem sub_eq {m n : Nat} {e g : Int} (hm : 0 < m) (hn : 0 < n) :
    sub Format.binary64 (.finite .positive m e hm) (.finite .positive n g hn)
      = UnpackedFloat.normalize Format.binary64 ((m * 2 ^ (e - min e g).toNat : Nat)
        - (n * 2 ^ (g - min e g).toNat : Nat)) (min e g) .positive := by
  rw [← Nat.shiftLeft_eq, ← Nat.shiftLeft_eq]
  rfl

theorem normalize_cases (x : Int) (e : Int) (s : Sign) :
    UnpackedFloat.normalize Format.binary64 x e s
        = UnpackedFloat.round Format.binary64 .negative (-x).toNat e ∨
      UnpackedFloat.normalize Format.binary64 x e s = .zero s ∨
      0 < x ∧ UnpackedFloat.normalize Format.binary64 x e s
        = UnpackedFloat.round Format.binary64 .positive x.toNat e := by
  unfold UnpackedFloat.normalize
  split
  · exact Or.inl rfl
  · exact Or.inr (Or.inl rfl)
  · next hgt => exact Or.inr (Or.inr ⟨compare_gt_iff_gt.1 hgt, rfl⟩)

/-- A number less one that is not negative: it is not above zero, or it is a number that is not above
the first one. -/
theorem sub_le {m n : Nat} {e g : Int} (hm : 0 < m) (hn : 0 < n) (hm' : m < 2 ^ 53)
    (he : -1074 ≤ e) :
    (∃ s, sub Format.binary64 (.finite .positive m e hm) (.finite .positive n g hn) = .zero s) ∨
    (∃ f k hf, sub Format.binary64 (.finite .positive m e hm) (.finite .positive n g hn)
      = .finite .negative f k hf) ∨
    ∃ f k hf, sub Format.binary64 (.finite .positive m e hm) (.finite .positive n g hn)
      = .finite .positive f k hf ∧ scaled f k ≤ scaled m e ∧ -1074 ≤ k ∧ k ≤ e := by
  have hfirst : scaled (m * 2 ^ (e - min e g).toNat) (min e g) = scaled m e := by
    rw [scaled_mul_pow]
    exact congrArg (scaled m) (by omega)
  rw [sub_eq]
  generalize m * 2 ^ (e - min e g).toNat = p at hfirst ⊢
  generalize n * 2 ^ (g - min e g).toNat = q
  rcases normalize_cases ((p : Int) - q) (min e g) .positive with heq | heq | ⟨hlt, heq⟩
  · rw [heq]
    rcases round_sign .negative (-((p : Int) - q)).toNat (min e g) with hzero | hfinite
    · exact Or.inl ⟨_, hzero⟩
    · exact Or.inr (Or.inl hfinite)
  · exact Or.inl ⟨_, heq⟩
  · have hle : scaled ((p : Int) - q).toNat (min e g) ≤ scaled m e := by
      rw [← hfirst, scaled_le_scaled_iff]
      omega
    rw [heq]
    rcases round_le (by omega) hm' he hle with hzero | hfinite
    · exact Or.inl ⟨_, hzero⟩
    · exact Or.inr (Or.inr hfinite)

theorem bounds_of_unpack {b : BitVec Format.binary64.numBits} {s : Sign} {m : Nat} {e : Int}
    {hm : 0 < m} (h : unpack Format.binary64 b = .finite s m e hm) :
    m < 2 ^ 53 ∧ -1074 ≤ e ∧ e ≤ 971 := by
  have hmantissa : (unpackMantissa b).toNat < 2 ^ 52 := (unpackMantissa b).isLt
  obtain ⟨_, ⟨_, rfl, rfl⟩ | ⟨hzero, hmax, rfl, rfl⟩⟩ := fields_of_unpack h
  · omega
  · omega

theorem not_pos_of_pack_negative {x : Float} {m : Nat} {e : Int} {hm : 0 < m}
    (hx : x.toModel = .pack (.finite .negative m e hm)) : ¬ 0 < x := by
  intro hpos
  have hsign : Sign.ofBitVec (unpackSign (pack Format.binary64 (.finite .negative m e hm)))
      = .negative := by
    rw [unpackSign_pack]
    rfl
  have hunpack : x.toModel.unpack
      = unpack Format.binary64 (pack Format.binary64 (.finite .negative m e hm)) := by
    rw [hx]
    rfl
  rcases unpack_of_pos hpos with ⟨m', e', hm', hfinite⟩ | hinfinite
  · rw [hunpack] at hfinite
    rw [(fields_of_unpack hfinite).1] at hsign
    exact absurd hsign nofun
  · rw [hunpack] at hinfinite
    rw [sign_of_unpack_infinity hinfinite] at hsign
    exact absurd hsign nofun

theorem not_pos_of_unpack_zero {x : Float} {s : Sign} (hx : x.toModel.unpack = .zero s) :
    ¬ 0 < x := by
  intro hpos
  rcases unpack_of_pos hpos with ⟨_, _, _, hfinite⟩ | hinfinite
  · rw [hx] at hfinite
    exact absurd hfinite nofun
  · rw [hx] at hinfinite
    exact absurd hinfinite nofun

theorem unpack_of_nonneg {x : Float} (hfinite : x.isFinite = true) (h : ¬ x < 0) :
    (∃ s, x.toModel.unpack = .zero s) ∨ ∃ m e hm, x.toModel.unpack = .finite .positive m e hm := by
  have hcmp : UnpackedFloat.compare x.toModel.unpack (.zero .positive) ≠ some .lt := by
    intro hlt
    exact h (decide_eq_true (beq_iff_eq.2 hlt))
  have hfinite : x.toModel.unpack.isFinite = true := hfinite
  cases hx : x.toModel.unpack with
  | notANumber => rw [hx] at hfinite; exact absurd hfinite nofun
  | infinity s => rw [hx] at hfinite; exact absurd hfinite nofun
  | zero s => exact Or.inl ⟨s, rfl⟩
  | finite s m e hm =>
    cases s with
    | negative => rw [hx] at hcmp; exact absurd rfl hcmp
    | positive => exact Or.inr ⟨m, e, hm, rfl⟩

/-- A double less one that is not negative is not above it, where the difference is above zero. -/
theorem unpack_sub {a b : Float} {m : Nat} {e : Int} {hm : 0 < m}
    (ha : a.toModel.unpack = .finite .positive m e hm) (hb : b.isFinite = true) (hneg : ¬ b < 0)
    (hpos : 0 < a - b) :
    ∃ m' e' hm', (a - b).toModel.unpack = .finite .positive m' e' hm' ∧
      scaled m' e' ≤ scaled m e := by
  obtain ⟨hm', hlow, hhigh⟩ := bounds_of_unpack ha
  have hpacked : ∀ {f k hf}, (a - b).toModel = .pack (.finite .positive f k hf) →
      scaled f k ≤ scaled m e → -1074 ≤ k → k ≤ e →
      ∃ m' e' hm', (a - b).toModel.unpack = .finite .positive m' e' hm' ∧
        scaled m' e' ≤ scaled m e := by
    intro f k hf heq hle hk hke
    rcases unpack_pack .positive f k hf hk (hke.trans hhigh) with hzero | ⟨m', e', hm', hx, hle'⟩
    · have hx : (a - b).toModel.unpack = .zero .positive := by
        rw [heq]
        exact hzero
      exact absurd hpos (not_pos_of_unpack_zero hx)
    · refine ⟨m', e', hm', ?_, hle'.trans hle⟩
      rw [heq]
      exact hx
  have hsub : (a - b).toModel = .pack (sub Format.binary64 a.toModel.unpack b.toModel.unpack) := rfl
  rw [ha] at hsub
  rcases unpack_of_nonneg hb hneg with ⟨s, hzero⟩ | ⟨n, g, hn, hfinite⟩
  · rw [hzero] at hsub
    exact hpacked hsub le_rfl hlow le_rfl
  · rw [hfinite] at hsub
    rcases sub_le hm hn hm' hlow with ⟨s, heq⟩ | ⟨f, k, hf, heq⟩ | ⟨f, k, hf, heq, hle, hk, hke⟩
    · rw [heq] at hsub
      refine absurd hpos (not_pos_of_unpack_zero (s := s) ?_)
      rw [hsub]
      exact unpack_packedZero s
    · rw [heq] at hsub
      exact absurd hpos (not_pos_of_pack_negative hsub)
    · rw [heq] at hsub
      exact hpacked hsub hle hk hke

end LidarSync.Decimal
