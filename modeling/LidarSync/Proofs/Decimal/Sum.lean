import LidarSync.Proofs.Decimal.Order
import LidarSync.Proofs.Decimal.Quotient

/-!
# The sum of two doubles

Numbers are in the order of their exact values (`weight_le_iff`), if infinity counts as the first
number that is too large. The sum of two finite doubles stands for the exact sum, rounded under its
sign (`nearest_add`), and rounding keeps the order of numbers with signs (`Nearest.exact_mono`). So
adding a finite double keeps the order of all numbers, infinities and results that are too large
included (`add_le_add_of_isFinite`).
-/

namespace LidarSync.Decimal

open Float.Model (Format UnpackedFloat totalExponent)
open Float.Model.UnpackedFloat

/-! ## Exact values -/

/-- A magnitude under a sign. -/
def underSign : Sign → ℚ → ℚ
  | .positive, x => x
  | .negative, x => -x

/-- The power of two from which on numbers are too large for a double. -/
def ceiling : ℚ := 2 ^ (1024 : Int)

theorem ceiling_pos : 0 < ceiling := by
  unfold ceiling
  positivity

/-- The exact value of a number, where infinity is taken for the least number that is too large. -/
def exact : UnpackedFloat → ℚ
  | .notANumber => 0
  | .infinity s => underSign s ceiling
  | .zero _ => 0
  | .finite s m e _ => underSign s (scaled m e)

/-- A value and the place that a number with this value has. -/
def Placed (x : ℚ) (w : Int) : Prop :=
  ∃ (m : Nat) (e : Int), m < 2 ^ 53 ∧ -1074 ≤ e ∧ (e = -1074 ∨ 2 ^ 52 ≤ m) ∧ x = scaled m e ∧
    w = (e + 1074) * 2 ^ 52 + m

theorem scaled_nonneg (m : Nat) (e : Int) : 0 ≤ scaled m e := by
  unfold scaled
  positivity

theorem ceiling_eq : ceiling = scaled (2 ^ 52) 972 := by
  have hsum : (2 : ℚ) ^ (1024 : Int) = (2 : ℚ) ^ (52 : Int) * (2 : ℚ) ^ (972 : Int) := by
    rw [← zpow_add₀ (by norm_num)]
    rfl
  have hm : ((2 ^ 52 : Nat) : ℚ) = (2 : ℚ) ^ (52 : Int) := by norm_num
  rw [ceiling, hsum, scaled, hm]

/-- The larger place belongs to the larger value: it has a larger exponent, or a larger mantissa. -/
theorem Placed.lt_of_lt {x x' : ℚ} {w w' : Int} (h : Placed x w) (h' : Placed x' w')
    (hlt : w < w') : x < x' := by
  obtain ⟨m, e, hshort, hlow, hfull, rfl, rfl⟩ := h
  obtain ⟨m', e', hshort', hlow', hfull', rfl, rfl⟩ := h'
  rcases lt_trichotomy e e' with he | rfl | he
  · have hm : (m : ℚ) < 2 ^ (53 : Int) := by exact_mod_cast hshort
    have hm' : (2 : ℚ) ^ (52 : Int) ≤ m' := by
      have hle : 2 ^ 52 ≤ m' := hfull'.resolve_left (by omega)
      exact_mod_cast hle
    calc scaled m e < (2 : ℚ) ^ (53 : Int) * (2 : ℚ) ^ e :=
          mul_lt_mul_of_pos_right hm (by positivity)
      _ = (2 : ℚ) ^ (53 + e) := (zpow_add₀ (by norm_num) _ _).symm
      _ ≤ (2 : ℚ) ^ (52 + e') := zpow_le_zpow_right₀ (by norm_num) (by omega)
      _ = (2 : ℚ) ^ (52 : Int) * (2 : ℚ) ^ e' := zpow_add₀ (by norm_num) _ _
      _ ≤ scaled m' e' := mul_le_mul_of_nonneg_right hm' (by positivity)
  · rw [← not_le, scaled_le_scaled_iff]
    omega
  · omega

theorem Placed.nonneg {x : ℚ} {w : Int} (h : Placed x w) : 0 ≤ w := by
  obtain ⟨m, e, hshort, hlow, hfull, rfl, rfl⟩ := h
  omega

theorem placed_zero : Placed 0 0 := by
  refine ⟨0, -1074, by norm_num, le_rfl, Or.inl rfl, ?_, rfl⟩
  unfold scaled
  norm_num

theorem Placed.eq_of_eq {x x' : ℚ} {w : Int} (h : Placed x w) (h' : Placed x' w) : x = x' := by
  obtain ⟨m, e, hshort, hlow, hfull, rfl, rfl⟩ := h
  obtain ⟨m', e', hshort', hlow', hfull', rfl, heq⟩ := h'
  obtain rfl : e = e' := by omega
  obtain rfl : m = m' := by omega
  rfl

theorem Placed.le_iff {x x' : ℚ} {w w' : Int} (h : Placed x w) (h' : Placed x' w') :
    w ≤ w' ↔ x ≤ x' := by
  rcases lt_trichotomy w w' with hlt | rfl | hgt
  · exact iff_of_true hlt.le (h.lt_of_lt h' hlt).le
  · exact iff_of_true le_rfl (h.eq_of_eq h').le
  · exact iff_of_false (not_le_of_gt hgt) (not_le_of_gt (h'.lt_of_lt h hgt))

theorem exists_placed {u : UnpackedFloat} (hu : Canonical u) :
    ∃ s x w, Placed x w ∧ exact u = underSign s x ∧ weight u = s.apply w := by
  cases u with
  | notANumber => exact absurd hu id
  | infinity s =>
    exact ⟨s, ceiling, 0x7FF0000000000000,
      ⟨2 ^ 52, 972, by norm_num, by norm_num, Or.inr le_rfl, ceiling_eq, by norm_num⟩, rfl, rfl⟩
  | zero s => exact ⟨.positive, 0, 0, placed_zero, rfl, rfl⟩
  | finite s m e hm =>
    obtain ⟨hshort, hlow, -, hfull⟩ := hu
    exact ⟨s, scaled m e, _, ⟨m, e, hshort, hlow, hfull, rfl, rfl⟩, rfl, rfl⟩

/-- A number that is not negative is not above one that is not positive, unless both are zero. -/
theorem Placed.le_neg_iff {x x' : ℚ} {w w' : Int} (h : Placed x w) (h' : Placed x' w') :
    w ≤ -w' ↔ x ≤ -x' := by
  have hx := h.le_iff placed_zero
  have hx' := h'.le_iff placed_zero
  have hw := h.nonneg
  have hw' := h'.nonneg
  have hpos := (placed_zero.le_iff h).1 hw
  have hpos' := (placed_zero.le_iff h').1 hw'
  constructor
  · intro hle
    have hnone := hx.1 (by omega)
    have hnone' := hx'.1 (by omega)
    linarith
  · intro hle
    have hnone := hx.2 (by linarith)
    have hnone' := hx'.2 (by linarith)
    omega

/-- Places are in the order of the exact values. -/
theorem weight_le_iff {u v : UnpackedFloat} (hu : Canonical u) (hv : Canonical v) :
    weight u ≤ weight v ↔ exact u ≤ exact v := by
  obtain ⟨s, x, w, hx, hexact, hweight⟩ := exists_placed hu
  obtain ⟨s', x', w', hx', hexact', hweight'⟩ := exists_placed hv
  rw [hexact, hexact', hweight, hweight']
  cases s with
  | positive =>
    cases s' with
    | positive => exact hx.le_iff hx'
    | negative => exact hx.le_neg_iff hx'
  | negative =>
    cases s' with
    | positive =>
      have hw := hx.nonneg
      have hw' := hx'.nonneg
      have hpos := (placed_zero.le_iff hx).1 hw
      have hpos' := (placed_zero.le_iff hx').1 hw'
      change -w ≤ w' ↔ -x ≤ x'
      exact iff_of_true (by omega) (by linarith)
    | negative =>
      change -w ≤ -w' ↔ -x ≤ -x'
      rw [neg_le_neg_iff, neg_le_neg_iff]
      exact hx'.le_iff hx

/-! ## Rounding -/

/-- What rounding makes of a magnitude stands for the rounded exact value. -/
theorem round_rounds (s : Sign) {m : Nat} (e : Int) (hm : 0 < m) :
    ∃ r place, Rounds (scaled m e) r place ∧
      Stands s (scaled r place) (UnpackedFloat.round Format.binary64 s m e) := by
  rw [round_eq]
  generalize hj : (e - Format.binary64.targetExponent (totalExponent m e)).toNat = j
  have hlong : 52 ≤ (m * 2 ^ j / 1).log2 ∨ e - j ≤ -1074 := by
    have hlog : m.log2 + j ≤ (m * 2 ^ j).log2 := by
      rw [Nat.le_log2 (Nat.mul_pos hm (Nat.two_pow_pos j)).ne', Nat.pow_add]
      exact Nat.mul_le_mul_right _ (Nat.log2_self_le hm.ne')
    rw [Nat.div_one]
    rw [targetExponent_eq] at hj
    unfold totalExponent at hj
    omega
  obtain ⟨r, place, hrounds, hstands⟩ := roundWithAccuracy_rounds s Nat.one_pos hlong
  have hvalue : ((m * 2 ^ j : Nat) : ℚ) / (1 : Nat) * 2 ^ (e - j) = scaled m e := by
    have hback := scaled_mul_pow m j (e - j)
    rw [Int.sub_add_cancel] at hback
    rw [Nat.cast_one, div_one]
    exact hback
  rw [hvalue] at hrounds
  rw [Nat.div_one, Nat.mod_one] at hstands
  exact ⟨r, place, hrounds, hstands⟩

/-- A number that stands for the rounded exact value. -/
def Nearest (q : ℚ) (u : UnpackedFloat) : Prop :=
  ∃ s a r place, q = underSign s a ∧ Rounds a r place ∧ Stands s (scaled r place) u

theorem underSign_zero (s : Sign) : underSign s 0 = 0 := by
  cases s with
  | positive => rfl
  | negative => exact neg_zero

theorem rounds_self {m : Nat} {e : Int} (hshort : m < 2 ^ 53) (hlow : -1074 ≤ e)
    (hfull : e = -1074 ∨ 2 ^ 52 ≤ m) : Rounds (scaled m e) m e := by
  have hpow : (0 : ℚ) < 2 ^ e := by positivity
  refine ⟨⟨m, 1, Nat.one_pos, ?_, ?_⟩, hlow, ?_, hfull.imp_right fun hle => ?_⟩
  · rw [Nat.cast_one, div_one]
    rfl
  · unfold roundDiv
    simp [Nat.mod_one]
  · rw [add_comm, zpow_add₀ (by norm_num)]
    exact mul_lt_mul_of_pos_right (by exact_mod_cast hshort) hpow
  · rw [add_comm, zpow_add₀ (by norm_num)]
    exact mul_le_mul_of_nonneg_right (by exact_mod_cast hle) hpow.le

theorem nearest_zero (s : Sign) : Nearest 0 (.zero s) := by
  have hzero : scaled 0 (-1074) = 0 := zero_mul _
  have hrounds := rounds_self (m := 0) (e := -1074) (by norm_num) le_rfl (Or.inl rfl)
  rw [hzero] at hrounds
  exact ⟨s, 0, 0, -1074, (underSign_zero s).symm, hrounds, .zero hzero⟩

theorem nearest_exact {u : UnpackedFloat} (hu : Canonical u) (hfinite : u.isFinite = true) :
    Nearest (exact u) u := by
  cases u with
  | notANumber => exact absurd hu id
  | infinity s => exact absurd hfinite nofun
  | zero s => exact nearest_zero s
  | finite s m e hm =>
    obtain ⟨hshort, hlow, -, hfull⟩ := hu
    exact ⟨s, scaled m e, m, e, rfl, rounds_self hshort hlow hfull, .finite rfl hshort hlow hfull⟩

theorem nearest_normalize (k e : Int) (s : Sign) :
    Nearest (k * 2 ^ e) (UnpackedFloat.normalize Format.binary64 k e s) := by
  unfold UnpackedFloat.normalize
  rcases lt_trichotomy k 0 with hlt | rfl | hgt
  · rw [compare_lt_iff_lt.2 hlt]
    obtain ⟨r, place, hrounds, hstands⟩ :=
      round_rounds .negative e (m := (-k).toNat) (by omega)
    have hk : (((-k).toNat : Nat) : Int) = -k := by omega
    refine ⟨.negative, _, r, place, ?_, hrounds, hstands⟩
    unfold underSign scaled
    rw [← Int.cast_natCast, hk]
    push_cast
    ring
  · rw [compare_eq_iff_eq.2 rfl, Int.cast_zero, zero_mul]
    exact nearest_zero s
  · rw [compare_gt_iff_gt.2 hgt]
    obtain ⟨r, place, hrounds, hstands⟩ := round_rounds .positive e (m := k.toNat) (by omega)
    have hk : ((k.toNat : Nat) : Int) = k := by omega
    refine ⟨.positive, _, r, place, ?_, hrounds, hstands⟩
    unfold underSign scaled
    rw [← Int.cast_natCast, hk]

theorem add_eq (s t : Sign) {m n : Nat} (e g : Int) (hm : 0 < m) (hn : 0 < n) :
    add Format.binary64 (.finite s m e hm) (.finite t n g hn)
      = UnpackedFloat.normalize Format.binary64 (s.apply (m * 2 ^ (e - min e g).toNat : Nat)
        + t.apply (n * 2 ^ (g - min e g).toNat : Nat)) (min e g) .positive := by
  rw [← Nat.shiftLeft_eq, ← Nat.shiftLeft_eq]
  rfl

theorem cast_apply (s : Sign) (n : Nat) (e : Int) :
    (s.apply n : Int) * (2 : ℚ) ^ e = underSign s (scaled n e) := by
  cases s with
  | positive => rfl
  | negative =>
    change ((-(n : Int) : Int) : ℚ) * _ = _
    push_cast
    exact neg_mul _ _

/-- The sum of two finite numbers stands for the exact sum. -/
theorem nearest_add {u v : UnpackedFloat} (hu : Canonical u) (hv : Canonical v)
    (hufin : u.isFinite = true) (hvfin : v.isFinite = true) :
    Nearest (exact u + exact v) (add Format.binary64 u v) := by
  cases u with
  | notANumber => exact absurd hu id
  | infinity s => exact absurd hufin nofun
  | zero s =>
    change Nearest (0 + exact v) _
    rw [zero_add]
    cases v with
    | notANumber => exact absurd hv id
    | infinity t => exact absurd hvfin nofun
    | zero t => cases s <;> cases t <;> exact nearest_zero _
    | finite t n g hn => exact nearest_exact hv hvfin
  | finite s m e hm =>
    cases v with
    | notANumber => exact absurd hv id
    | infinity t => exact absurd hvfin nofun
    | zero t =>
      change Nearest (exact _ + 0) _
      rw [add_zero]
      exact nearest_exact hu hufin
    | finite t n g hn =>
      have hm' : scaled (m * 2 ^ (e - min e g).toNat) (min e g) = scaled m e := by
        rw [scaled_mul_pow]
        exact congrArg (scaled m) (by omega)
      have hn' : scaled (n * 2 ^ (g - min e g).toNat) (min e g) = scaled n g := by
        rw [scaled_mul_pow]
        exact congrArg (scaled n) (by omega)
      have hsum := nearest_normalize (s.apply (m * 2 ^ (e - min e g).toNat : Nat)
        + t.apply (n * 2 ^ (g - min e g).toNat : Nat)) (min e g) .positive
      rw [Int.cast_add, add_mul, cast_apply, cast_apply, hm', hn'] at hsum
      rw [add_eq]
      exact hsum

theorem Rounds.nonneg {q : ℚ} {r : Nat} {place : Int} (h : Rounds q r place) : 0 ≤ q := by
  obtain ⟨n, d, hd, rfl, -⟩ := h.nearest
  positivity

theorem Rounds.eq_zero {r : Nat} {place : Int} (h : Rounds 0 r place) : scaled r place = 0 := by
  have hzero : scaled 0 (-1074) = 0 := zero_mul _
  have hrounds := rounds_self (m := 0) (e := -1074) (by norm_num) le_rfl (Or.inl rfl)
  rw [hzero] at hrounds
  have hle := h.mono hrounds le_rfl
  rw [hzero] at hle
  exact le_antisymm hle (scaled_nonneg r place)

theorem Stands.ne_notANumber {s : Sign} {x : ℚ} {u : UnpackedFloat} (h : Stands s x u) :
    u ≠ .notANumber := by
  cases h with
  | zero _ => exact nofun
  | finite _ _ _ _ => exact nofun

theorem Stands.exact_eq {s : Sign} {x : ℚ} {u : UnpackedFloat} (h : Stands s x u) :
    exact u = underSign s x := by
  cases h with
  | zero hx =>
    rw [hx, underSign_zero]
    rfl
  | finite hx _ _ _ =>
    rw [hx]
    rfl

theorem Stands.exact_unpack_pack {s : Sign} {x : ℚ} {u : UnpackedFloat} (h : Stands s x u) :
    exact (unpack Format.binary64 (pack _ u)) = underSign s (min x ceiling) := by
  rcases h.unpack_pack with ⟨heq, hlt⟩ | ⟨heq, hle⟩
  · rw [heq, h.exact_eq, ceiling, min_eq_left hlt.le]
  · have hceiling : min x ceiling = ceiling := min_eq_right hle
    rw [heq, hceiling]
    rfl

/-- Rounding keeps the order of numbers with signs. -/
theorem Nearest.exact_mono {q q' : ℚ} {u u' : UnpackedFloat} (h : Nearest q u)
    (h' : Nearest q' u') (hle : q ≤ q') :
    exact (unpack Format.binary64 (pack _ u)) ≤ exact (unpack Format.binary64 (pack _ u')) := by
  obtain ⟨s, a, r, place, rfl, hrounds, hstands⟩ := h
  obtain ⟨s', a', r', place', rfl, hrounds', hstands'⟩ := h'
  rw [hstands.exact_unpack_pack, hstands'.exact_unpack_pack]
  have ha := hrounds.nonneg
  have ha' := hrounds'.nonneg
  have hpos := le_min (scaled_nonneg r place) ceiling_pos.le
  have hpos' := le_min (scaled_nonneg r' place') ceiling_pos.le
  cases s with
  | positive =>
    cases s' with
    | positive => exact min_le_min_right _ (hrounds.mono hrounds' hle)
    | negative =>
      change a ≤ -a' at hle
      obtain rfl : a = 0 := by linarith
      obtain rfl : a' = 0 := by linarith
      have hnone : min 0 ceiling = 0 := min_eq_left ceiling_pos.le
      rw [hrounds.eq_zero, hrounds'.eq_zero, hnone, underSign_zero, underSign_zero]
  | negative =>
    cases s' with
    | positive => exact (neg_nonpos.2 hpos).trans hpos'
    | negative =>
      have hback := hrounds'.mono hrounds (neg_le_neg_iff.1 hle)
      exact neg_le_neg (min_le_min_right _ hback)

/-! ## Sums of doubles -/

theorem add_infinity (s : Sign) {v : UnpackedFloat} (hv : Canonical v) (hfinite : v.isFinite = true) :
    add Format.binary64 (.infinity s) v = .infinity s := by
  cases v with
  | notANumber => exact absurd hv id
  | infinity t => exact absurd hfinite nofun
  | zero t => rfl
  | finite t n g hn => rfl

theorem unpack_packedInfinity (s : Sign) :
    unpack Format.binary64 (pack _ (.infinity s)) = .infinity s := by
  cases s <;> rfl

theorem isFinite_cases {u : UnpackedFloat} (hu : Canonical u) :
    u.isFinite = true ∨ ∃ s, u = .infinity s := by
  cases u with
  | notANumber => exact absurd hu id
  | infinity s => exact Or.inr ⟨s, rfl⟩
  | zero s => exact Or.inl rfl
  | finite s m e hm => exact Or.inl rfl

/-- Finite numbers stand between the infinities. -/
theorem weight_of_isFinite {u : UnpackedFloat} (hu : Canonical u) (hfinite : u.isFinite = true) :
    weight (.infinity .negative) < weight u ∧ weight u < weight (.infinity .positive) := by
  cases u with
  | notANumber => exact absurd hu id
  | infinity s => exact absurd hfinite nofun
  | zero s =>
    dsimp only [weight, Sign.apply]
    omega
  | finite s m e hm =>
    obtain ⟨hshort, hlow, hhigh, -⟩ := hu
    cases s <;> dsimp only [weight, Sign.apply] <;> omega

theorem weight_bounds {u : UnpackedFloat} (hu : Canonical u) :
    weight (.infinity .negative) ≤ weight u ∧ weight u ≤ weight (.infinity .positive) := by
  rcases isFinite_cases hu with hfinite | ⟨s, rfl⟩
  · obtain ⟨hlow, hhigh⟩ := weight_of_isFinite hu hfinite
    exact ⟨hlow.le, hhigh.le⟩
  · cases s <;> decide

section Doubles

variable {x y c : Float}

theorem isNaN_of_isFinite (hc : c.isFinite = true) : c.isNaN = false := by
  rw [isNaN_eq_false_iff]
  intro hnan
  have hfinite : c.toModel.unpack.isFinite = true := hc
  rw [hnan] at hfinite
  exact absurd hfinite nofun

theorem unpack_add (x c : Float) : (x + c).toModel.unpack
    = unpack Format.binary64 (pack _ (add Format.binary64 x.toModel.unpack c.toModel.unpack)) := rfl

/-- Infinity stays when a finite number is added. -/
theorem unpack_add_of_infinite {s : Sign} (hx : x.toModel.unpack = .infinity s)
    (hc : c.isFinite = true) : (x + c).toModel.unpack = .infinity s := by
  rw [unpack_add, hx, add_infinity s (canonical_of_isNaN (isNaN_of_isFinite hc)) hc,
    unpack_packedInfinity]

/-- The sum of two finite numbers stands for the exact sum. -/
theorem nearest_sum (hx : x.isFinite = true) (hc : c.isFinite = true) :
    Nearest (exact x.toModel.unpack + exact c.toModel.unpack)
      (add Format.binary64 x.toModel.unpack c.toModel.unpack) :=
  nearest_add (canonical_of_isNaN (isNaN_of_isFinite hx)) (canonical_of_isNaN (isNaN_of_isFinite hc))
    hx hc

/-- A number and a finite one have a sum. -/
theorem isNaN_add (hx : x.isNaN = false) (hc : c.isFinite = true) : (x + c).isNaN = false := by
  rw [isNaN_eq_false_iff]
  rcases isFinite_cases (canonical_of_isNaN hx) with hfinite | ⟨s, hs⟩
  · obtain ⟨s, a, r, place, -, -, hstands⟩ := nearest_sum hfinite hc
    rw [unpack_add]
    rcases hstands.unpack_pack with ⟨heq, -⟩ | ⟨heq, -⟩
    · rw [heq]
      exact hstands.ne_notANumber
    · rw [heq]
      exact nofun
  · rw [unpack_add_of_infinite hs hc]
    exact nofun

/-- Adding a finite double keeps the order. -/
theorem add_le_add_of_isFinite (hc : c.isFinite = true) (h : x ≤ y) : x + c ≤ y + c := by
  have hx := isNaN_of_le h
  have hy := isNaN_of_ge h
  have hsum := isNaN_add hx hc
  have hsum' := isNaN_add hy hc
  have hu := canonical_of_isNaN hx
  have hv := canonical_of_isNaN hy
  rw [le_iff_place hx hy, place_eq hx, place_eq hy] at h
  rw [le_iff_place hsum hsum', place_eq hsum, place_eq hsum']
  obtain ⟨hlow, -⟩ := weight_bounds (canonical_of_isNaN hsum')
  obtain ⟨-, hhigh⟩ := weight_bounds (canonical_of_isNaN hsum)
  rcases isFinite_cases hu with hufin | ⟨s, hs⟩
  · rcases isFinite_cases hv with hvfin | ⟨t, ht⟩
    · rw [weight_le_iff hu hv] at h
      rw [weight_le_iff (canonical_of_isNaN hsum) (canonical_of_isNaN hsum')]
      exact (nearest_sum hufin hc).exact_mono (nearest_sum hvfin hc) (by linarith)
    · rw [unpack_add_of_infinite ht hc]
      cases t with
      | positive => exact hhigh
      | negative =>
        rw [ht] at h
        exact absurd h (not_le_of_gt (weight_of_isFinite hu hufin).1)
  · rw [unpack_add_of_infinite hs hc]
    rw [hs] at h
    cases s with
    | negative => exact hlow
    | positive =>
      rcases isFinite_cases hv with hvfin | ⟨t, ht⟩
      · exact absurd h (not_le_of_gt (weight_of_isFinite hv hvfin).2)
      · rw [unpack_add_of_infinite ht hc]
        rw [ht] at h
        exact h

end Doubles

end LidarSync.Decimal
