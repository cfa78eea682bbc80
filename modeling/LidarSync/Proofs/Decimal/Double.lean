import LidarSync.Proofs.Decimal.Rounded

/-!
# Doubles as exact numbers

The arithmetic of doubles unpacks its operands, works on a sign, a mantissa and an exponent, and packs
the result. Here are the three facts about that which the order of doubles needs: a word that is
unpacked to a number is decoded to the same number (`decode_of_unpack`), packing keeps the sign
(`unpackSign_pack`), and a number is not above itself after it was packed (`unpack_pack`).
-/

namespace LidarSync.Decimal

open Float.Model (Format UnpackedFloat)
open Float.Model.UnpackedFloat

/-! ## The fields of a word -/

theorem toNat_unpackMantissa (b : BitVec Format.binary64.numBits) :
    (unpackMantissa b).toNat = b.toNat % twoTo WordFormat.double.fractionBits := by
  unfold unpackMantissa
  rw [BitVec.toNat_cast, BitVec.extractLsb_toNat]
  rfl

theorem toNat_unpackExponent (b : BitVec Format.binary64.numBits) :
    (unpackExponent b).toNat = b.toNat / twoTo WordFormat.double.fractionBits
      % twoTo WordFormat.double.exponentBits := by
  unfold unpackExponent
  rw [BitVec.toNat_cast, BitVec.extractLsb_toNat, Nat.shiftRight_eq_div_pow]
  rfl

theorem toNat_unpackSign (b : BitVec Format.binary64.numBits) :
    (unpackSign b).toNat = b.toNat
      / twoTo (WordFormat.double.fractionBits + WordFormat.double.exponentBits) % 2 := by
  unfold unpackSign
  rw [BitVec.toNat_cast, BitVec.extractLsb_toNat, Nat.shiftRight_eq_div_pow]
  rfl

theorem sign_toBitVec (s : Sign) : Sign.ofBitVec s.toBitVec = s := by
  cases s <;> rfl

theorem toNat_one_append (m : BitVec 52) : (1#1 ++ m).toNat = 2 ^ 52 + m.toNat := by
  rw [BitVec.toNat_append, ← Nat.shiftLeft_add_eq_or_of_lt m.isLt]
  rfl

/-! ## Unpacking -/

theorem finite_congr {s : Sign} {m m' : Nat} {e e' : Int} {hm : 0 < m} {hm' : 0 < m'}
    (hmantissa : m = m') (hexponent : e = e') :
    UnpackedFloat.finite s m e hm = .finite s m' e' hm' := by
  subst hmantissa
  subst hexponent
  rfl

theorem unpack_special {b : BitVec Format.binary64.numBits} (he : unpackExponent b = -1#11) :
    unpack Format.binary64 b = .infinity (Sign.ofBitVec (unpackSign b)) ∨
      unpack Format.binary64 b = .notANumber := by
  unfold unpack
  rw [if_pos he]
  by_cases hmantissa : unpackMantissa b = 0#52
  · rw [if_pos hmantissa]
    exact Or.inl rfl
  · rw [if_neg hmantissa]
    exact Or.inr rfl

theorem unpack_of_subnormal {b : BitVec Format.binary64.numBits} (he : unpackExponent b = 0#11)
    (hmantissa : unpackMantissa b ≠ 0#52) :
    ∃ hm, unpack Format.binary64 b
      = .finite (Sign.ofBitVec (unpackSign b)) (unpackMantissa b).toNat (-1074) hm := by
  have hmax : ¬ unpackExponent b = -1#11 := by
    rw [he]
    decide
  have hlow : ((unpackExponent b).toNat : Int) - ((Format.binary64.exponentBias : Nat)
      + (Format.binary64.mantissaBitsWithoutImplicit : Nat)) + 1 = -1074 := by
    rw [he]
    rfl
  have hpos : 0 < (unpackMantissa b).toNat :=
    Nat.pos_of_ne_zero fun h => hmantissa (BitVec.eq_of_toNat_eq h)
  unfold unpack
  rw [if_neg hmax, if_pos he, dif_neg hmantissa]
  exact ⟨hpos, finite_congr rfl hlow⟩

theorem unpack_of_zero {b : BitVec Format.binary64.numBits} (he : unpackExponent b = 0#11)
    (hmantissa : unpackMantissa b = 0#52) :
    unpack Format.binary64 b = .zero (Sign.ofBitVec (unpackSign b)) := by
  have hmax : ¬ unpackExponent b = -1#11 := by
    rw [he]
    decide
  unfold unpack
  rw [if_neg hmax, if_pos he, dif_pos hmantissa]

theorem unpack_subnormal {b : BitVec Format.binary64.numBits} (he : unpackExponent b = 0#11) :
    unpack Format.binary64 b = .zero (Sign.ofBitVec (unpackSign b)) ∨
      ∃ hm, unpack Format.binary64 b
        = .finite (Sign.ofBitVec (unpackSign b)) (unpackMantissa b).toNat (-1074) hm := by
  by_cases hmantissa : unpackMantissa b = 0#52
  · exact Or.inl (unpack_of_zero he hmantissa)
  · exact Or.inr (unpack_of_subnormal he hmantissa)

theorem unpack_normal {b : BitVec Format.binary64.numBits} (hmax : unpackExponent b ≠ -1#11)
    (hzero : unpackExponent b ≠ 0#11) :
    ∃ hm, unpack Format.binary64 b = .finite (Sign.ofBitVec (unpackSign b))
      (2 ^ 52 + (unpackMantissa b).toNat) ((unpackExponent b).toNat - 1075) hm := by
  have hbias : ((Format.binary64.exponentBias : Nat) : Int)
      + (Format.binary64.mantissaBitsWithoutImplicit : Nat) = 1075 := rfl
  unfold unpack
  rw [if_neg hmax, if_neg hzero]
  refine ⟨Nat.add_pos_left (by decide) _, ?_⟩
  exact finite_congr (toNat_one_append _) (congrArg (((unpackExponent b).toNat : Int) - ·) hbias)

theorem isFinite_unpack {b : BitVec Format.binary64.numBits} (h : unpackExponent b ≠ -1#11) :
    (unpack Format.binary64 b).isFinite = true := by
  by_cases hzero : unpackExponent b = 0#11
  · rcases unpack_subnormal hzero with heq | ⟨_, heq⟩
    · rw [heq]
      rfl
    · rw [heq]
      rfl
  · obtain ⟨_, heq⟩ := unpack_normal h hzero
    rw [heq]
    rfl

theorem unpackExponent_lt {b : BitVec Format.binary64.numBits} (h : unpackExponent b ≠ -1#11) :
    (unpackExponent b).toNat < 2047 := by
  have hlt := (unpackExponent b).isLt
  have hne : (unpackExponent b).toNat ≠ 2047 := fun he => h (BitVec.eq_of_toNat_eq he)
  change (unpackExponent b).toNat < 2048 at hlt
  omega

theorem fields_of_unpack {b : BitVec Format.binary64.numBits} {s : Sign} {m : Nat} {e : Int}
    {hm : 0 < m} (h : unpack Format.binary64 b = .finite s m e hm) :
    Sign.ofBitVec (unpackSign b) = s ∧
    ((unpackExponent b).toNat = 0 ∧ (unpackMantissa b).toNat = m ∧ e = -1074 ∨
      (unpackExponent b).toNat ≠ 0 ∧ (unpackExponent b).toNat < 2047 ∧
        2 ^ 52 + (unpackMantissa b).toNat = m ∧ e = (unpackExponent b).toNat - 1075) := by
  by_cases hmax : unpackExponent b = -1#11
  · rcases unpack_special hmax with heq | heq
    · exact UnpackedFloat.noConfusion (heq.symm.trans h)
    · exact UnpackedFloat.noConfusion (heq.symm.trans h)
  · by_cases hzero : unpackExponent b = 0#11
    · rcases unpack_subnormal hzero with heq | ⟨_, heq⟩
      · exact UnpackedFloat.noConfusion (heq.symm.trans h)
      · obtain ⟨hs, hm, he⟩ := finite.inj (heq.symm.trans h)
        exact ⟨hs, Or.inl ⟨by rw [hzero]; rfl, hm, he.symm⟩⟩
    · obtain ⟨_, heq⟩ := unpack_normal hmax hzero
      obtain ⟨hs, hm, he⟩ := finite.inj (heq.symm.trans h)
      have hne : (unpackExponent b).toNat ≠ 0 := fun h => hzero (BitVec.eq_of_toNat_eq h)
      exact ⟨hs, Or.inr ⟨hne, unpackExponent_lt hmax, hm, he.symm⟩⟩

theorem sign_of_unpack_infinity {b : BitVec Format.binary64.numBits} {s : Sign}
    (h : unpack Format.binary64 b = .infinity s) : Sign.ofBitVec (unpackSign b) = s := by
  by_cases hmax : unpackExponent b = -1#11
  · rcases unpack_special hmax with heq | heq
    · exact infinity.inj (heq.symm.trans h)
    · exact UnpackedFloat.noConfusion (heq.symm.trans h)
  · by_cases hzero : unpackExponent b = 0#11
    · rcases unpack_subnormal hzero with heq | ⟨_, heq⟩
      · exact UnpackedFloat.noConfusion (heq.symm.trans h)
      · exact UnpackedFloat.noConfusion (heq.symm.trans h)
    · obtain ⟨_, heq⟩ := unpack_normal hmax hzero
      exact UnpackedFloat.noConfusion (heq.symm.trans h)

theorem sign_beq_negative (v : BitVec 1) :
    (Sign.ofBitVec v == .negative) = (v.toNat == 1) := by
  revert v
  decide

/-- A word that is unpacked to a finite number is decoded to the same number. -/
theorem decode_of_unpack {b : BitVec Format.binary64.numBits} {s : Sign} {m : Nat} {e : Int}
    {hm : 0 < m} (h : unpack Format.binary64 b = .finite s m e hm) :
    ∃ v, WordFormat.double.decode b.toNat = .finite (s == .negative) v ∧
      v.mantissa = m ∧ v.exponent = e := by
  obtain ⟨hs, hfields⟩ := fields_of_unpack h
  unfold WordFormat.decode
  dsimp only
  rw [← toNat_unpackSign, ← toNat_unpackMantissa, ← toNat_unpackExponent, ← sign_beq_negative, hs]
  rcases hfields with ⟨hzero, hmant, rfl⟩ | ⟨hzero, hlt, hmant, rfl⟩
  · have hmax :
        ¬ (unpackExponent b).toNat = twoTo WordFormat.double.exponentBits - 1 := by
      rw [hzero]
      decide
    rw [if_neg hmax, if_pos hzero]
    exact ⟨⟨_, _, _⟩, rfl, hmant, rfl⟩
  · have hmax :
        ¬ (unpackExponent b).toNat = twoTo WordFormat.double.exponentBits - 1 := Nat.ne_of_lt hlt
    rw [if_neg hmax, if_neg hzero]
    refine ⟨⟨_, _, _⟩, rfl, hmant, ?_⟩
    change -1074 + ((unpackExponent b).toNat : Int) - 1 = _
    omega

theorem decode_of_not_finite {b : BitVec Format.binary64.numBits}
    (h : (unpack Format.binary64 b).isFinite = false) :
    (∃ negative, WordFormat.double.decode b.toNat = .infinite negative) ∨
      WordFormat.double.decode b.toNat = .nan := by
  have hexponent : unpackExponent b = -1#11 := by
    by_contra hne
    exact absurd ((isFinite_unpack hne).symm.trans h) nofun
  have hmax : (unpackExponent b).toNat = twoTo WordFormat.double.exponentBits - 1 := by
    rw [hexponent]
    decide
  unfold WordFormat.decode
  dsimp only
  rw [← toNat_unpackMantissa, ← toNat_unpackExponent, if_pos hmax]
  split
  · exact Or.inl ⟨_, rfl⟩
  · exact Or.inr rfl

/-! ## Signs -/

theorem unpackSign_packComponents (s : Sign) (e : BitVec 11) (m : BitVec 52) :
    unpackSign (packComponents Format.binary64 s e m) = s.toBitVec := by
  apply BitVec.eq_of_toNat_eq
  have he := e.isLt
  have hm := m.isLt
  have hs := s.toBitVec.isLt
  rw [toNat_unpackSign]
  unfold packComponents
  rw [BitVec.toNat_append, BitVec.toNat_append, ← Nat.shiftLeft_add_eq_or_of_lt he,
    ← Nat.shiftLeft_add_eq_or_of_lt hm, Nat.shiftLeft_eq, Nat.shiftLeft_eq]
  change ((s.toBitVec.toNat * 2 ^ 11 + e.toNat) * 2 ^ 52 + m.toNat) / 2 ^ 63 % 2 = _
  omega

theorem unpackSign_pack (s : Sign) (m : Nat) (e : Int) (hm : 0 < m) :
    unpackSign (pack Format.binary64 (.finite s m e hm)) = s.toBitVec := by
  unfold pack
  dsimp only
  split
  · exact unpackSign_packComponents s _ _
  · split
    · exact unpackSign_packComponents s _ _
    · exact unpackSign_packComponents s _ _

theorem unpack_packedZero (s : Sign) : unpack Format.binary64 (packedZero _ s) = .zero s := by
  cases s <;> rfl

/-! ## Comparison with zero -/

theorem unpack_of_pos {x : Float} (h : 0 < x) :
    (∃ m e hm, x.toModel.unpack = .finite .positive m e hm) ∨
      x.toModel.unpack = .infinity .positive := by
  have hcmp : UnpackedFloat.compare (.zero .positive) x.toModel.unpack = some .lt := by
    have hlt : UnpackedFloat.lt (.zero .positive) x.toModel.unpack = true :=
      of_decide_eq_true h
    exact eq_of_beq hlt
  cases hx : x.toModel.unpack with
  | notANumber => rw [hx] at hcmp; exact absurd hcmp (by decide)
  | zero s => rw [hx] at hcmp; exact absurd hcmp nofun
  | infinity s =>
    rw [hx] at hcmp
    cases s with
    | negative => exact absurd hcmp (by decide)
    | positive => exact Or.inr rfl
  | finite s m e hm =>
    rw [hx] at hcmp
    cases s with
    | negative => exact absurd hcmp nofun
    | positive => exact Or.inl ⟨m, e, hm, rfl⟩

/-! ## Packing and unpacking -/

theorem biasedExponent_eq (e : Int) :
    (e + Format.binary64.exponentBias + Format.binary64.mantissaBitsWithoutImplicit).toNat =
      (e + 1075).toNat := by
  change (e + (1023 : Nat) + (52 : Nat)).toNat = _
  omega

theorem biasedExponent_fits {e : Int} (hhigh : e ≤ 971) :
    ¬ 2 ^ Format.binary64.exponentBits ≤ (e + 1075).toNat + 1 := by
  change ¬ 2 ^ 11 ≤ _
  omega

theorem pack_normal {s : Sign} {m : Nat} {e : Int} {hm : 0 < m} (hhigh : e ≤ 971)
    (hlog : m.log2 = 52) :
    pack Format.binary64 (.finite s m e hm) =
      packComponents Format.binary64 s (.ofNat 11 (e + 1075).toNat) (.ofNat 52 m) := by
  have hbits : m.log2 + 1 = Format.binary64.mantissaBits := congrArg Nat.succ hlog
  unfold pack
  dsimp only
  rw [biasedExponent_eq, if_neg (biasedExponent_fits hhigh), if_pos hbits]

theorem pack_subnormal {s : Sign} {m : Nat} {e : Int} {hm : 0 < m} (hhigh : e ≤ 971)
    (hlog : m.log2 ≠ 52) :
    pack Format.binary64 (.finite s m e hm) =
      packComponents Format.binary64 s 0#11 (.ofNat 52 m) := by
  have hbits : ¬ m.log2 + 1 = Format.binary64.mantissaBits := fun h => hlog (Nat.succ.inj h)
  unfold pack
  dsimp only
  rw [biasedExponent_eq, if_neg (biasedExponent_fits hhigh), if_neg hbits]

/-- A number with a mantissa of full length is unpacked as it was packed. -/
theorem unpack_pack_normal (s : Sign) (m : Nat) (e : Int) (hm : 0 < m) (hlow : -1074 ≤ e)
    (hhigh : e ≤ 971) (hlog : m.log2 = 52) :
    unpack Format.binary64 (pack _ (.finite s m e hm)) = .finite s m e hm := by
  rw [pack_normal hhigh hlog]
  have hle : 2 ^ 52 ≤ m := hlog ▸ Nat.log2_self_le hm.ne'
  have hlt : m < 2 ^ (m.log2 + 1) := Nat.lt_log2_self
  rw [hlog] at hlt
  have hexponent : (unpackExponent (packComponents Format.binary64 s
      (.ofNat 11 (e + 1075).toNat) (.ofNat 52 m))).toNat = (e + 1075).toNat := by
    have hlt : (e + 1075).toNat < 2 ^ 11 := by omega
    rw [unpackExponent_packComponents, BitVec.toNat_ofNat]
    exact Nat.mod_eq_of_lt hlt
  have hmantissa : 2 ^ 52 + (unpackMantissa (packComponents Format.binary64 s
      (.ofNat 11 (e + 1075).toNat) (.ofNat 52 m))).toNat = m := by
    rw [unpackMantissa_packComponents, BitVec.toNat_ofNat]
    change 2 ^ 52 + m % 2 ^ 52 = m
    omega
  have hmax : unpackExponent (packComponents Format.binary64 s
      (.ofNat 11 (e + 1075).toNat) (.ofNat 52 m)) ≠ -1#11 := by
    intro h
    have hfull : (e + 1075).toNat = 2047 := hexponent.symm.trans (congrArg BitVec.toNat h)
    omega
  have hzero : unpackExponent (packComponents Format.binary64 s
      (.ofNat 11 (e + 1075).toNat) (.ofNat 52 m)) ≠ 0#11 := by
    intro h
    have hnone : (e + 1075).toNat = 0 := hexponent.symm.trans (congrArg BitVec.toNat h)
    omega
  obtain ⟨_, heq⟩ := unpack_normal hmax hzero
  rw [unpackSign_packComponents, sign_toBitVec] at heq
  rw [heq]
  exact finite_congr hmantissa (by omega)

/-- Of a shorter mantissa the bits of a fraction are left, with the lowest exponent. -/
theorem unpack_pack_subnormal (s : Sign) (m : Nat) (e : Int) (hm : 0 < m) (hhigh : e ≤ 971)
    (hlog : m.log2 ≠ 52) :
    unpack Format.binary64 (pack _ (.finite s m e hm)) = .zero s ∨
      ∃ hm', unpack Format.binary64 (pack _ (.finite s m e hm))
        = .finite s (m % 2 ^ 52) (-1074) hm' := by
  rw [pack_subnormal hhigh hlog]
  have hmantissa : (unpackMantissa (packComponents Format.binary64 s 0#11
      (.ofNat 52 m))).toNat = m % 2 ^ 52 := by
    rw [unpackMantissa_packComponents, BitVec.toNat_ofNat]
  have heq := unpack_subnormal (b := packComponents Format.binary64 s 0#11 (.ofNat 52 m))
    unpackExponent_packComponents
  rw [unpackSign_packComponents, sign_toBitVec] at heq
  rcases heq with hzero | ⟨hm', heq⟩
  · exact Or.inl hzero
  · refine Or.inr ⟨hmantissa ▸ hm', ?_⟩
    rw [heq]
    exact finite_congr hmantissa rfl

/-- What a number becomes that is packed and unpacked again: it keeps its sign and is not above what
it was. -/
theorem unpack_pack (s : Sign) (m : Nat) (e : Int) (hm : 0 < m) (hlow : -1074 ≤ e)
    (hhigh : e ≤ 971) :
    unpack Format.binary64 (pack _ (.finite s m e hm)) = .zero s ∨
      ∃ m' e' hm', unpack Format.binary64 (pack _ (.finite s m e hm)) = .finite s m' e' hm' ∧
        scaled m' e' ≤ scaled m e := by
  by_cases hlog : m.log2 = 52
  · exact Or.inr ⟨m, e, hm, unpack_pack_normal s m e hm hlow hhigh hlog, le_rfl⟩
  · rcases unpack_pack_subnormal s m e hm hhigh hlog with hzero | ⟨hm', heq⟩
    · exact Or.inl hzero
    · refine Or.inr ⟨_, _, hm', heq, ?_⟩
      calc scaled (m % 2 ^ 52) (-1074) ≤ scaled m (-1074) :=
            scaled_le_scaled_iff.2 (Nat.mod_le m _)
        _ ≤ scaled m e := by
            unfold scaled
            exact mul_le_mul_of_nonneg_left (zpow_le_zpow_right₀ (by norm_num) hlow)
              (Nat.cast_nonneg m)

/-- A number whose mantissa is as long as its exponent allows is unpacked as it was packed. -/
theorem unpack_pack_eq (s : Sign) (m : Nat) (e : Int) (hm : 0 < m) (hlong : m < 2 ^ 53)
    (hlow : -1074 ≤ e) (hhigh : e ≤ 971) (hfull : e = -1074 ∨ 2 ^ 52 ≤ m) :
    unpack Format.binary64 (pack _ (.finite s m e hm)) = .finite s m e hm := by
  by_cases hlog : m.log2 = 52
  · exact unpack_pack_normal s m e hm hlow hhigh hlog
  · have hshort : m < 2 ^ 52 := by
      by_contra hle
      exact hlog ((Nat.log2_eq_iff hm.ne').2 ⟨Nat.le_of_not_lt hle, hlong⟩)
    have hsame : m % 2 ^ 52 = m := Nat.mod_eq_of_lt hshort
    obtain rfl := hfull.resolve_right (Nat.not_le_of_lt hshort)
    have hmantissa : (BitVec.ofNat 52 m).toNat = m := hsame
    have hne : unpackMantissa (packComponents Format.binary64 s 0#11 (.ofNat 52 m)) ≠ 0#52 := by
      rw [unpackMantissa_packComponents]
      intro hzero
      rw [hzero] at hmantissa
      exact hm.ne hmantissa
    obtain ⟨_, heq⟩ := unpack_of_subnormal unpackExponent_packComponents hne
    rw [pack_subnormal hhigh hlog, heq, unpackSign_packComponents, sign_toBitVec]
    exact finite_congr (by rw [unpackMantissa_packComponents, hmantissa]) rfl

theorem unpack_pack_overflow (s : Sign) (m : Nat) (e : Int) (hm : 0 < m) (hhigh : 971 < e) :
    unpack Format.binary64 (pack _ (.finite s m e hm)) = .infinity s := by
  have hlarge : 2 ^ Format.binary64.exponentBits ≤ (e + 1075).toNat + 1 := by
    change 2 ^ 11 ≤ _
    omega
  have hpack : pack Format.binary64 (.finite s m e hm) = packedInfinity _ s := by
    unfold pack
    dsimp only
    rw [biasedExponent_eq, if_pos hlarge]
  rw [hpack]
  cases s <;> rfl

end LidarSync.Decimal
