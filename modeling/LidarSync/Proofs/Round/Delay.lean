import LidarSync.Proofs.Blueprint.Valid
import LidarSync.Proofs.Decimal.Difference
import LidarSync.Proofs.Round.Collector
import LidarSync.Round.Deadline

/-!
# How long a deadline can be away

No arming asks for more than the timeout (`Collector.delay_le`): it is for the timeout itself, or for
the timeout less the lateness of a topic, which is not negative. The second case is a difference of
doubles, rounded, and then rounded again to nanoseconds.
-/

namespace LidarSync

open Decimal
open Float.Model (UnpackedFloat)

/-! ## Nanoseconds -/

theorem nanoseconds?_of_unpack {x : Float} {m : Nat} {e : Int} {hm : 0 < m}
    (h : x.toModel.unpack = .finite .positive m e hm) :
    ∃ v : Magnitude, v.value = scaled m e ∧ nanoseconds? x = some (v.roundTo (-9)).coefficient := by
  obtain ⟨v, hword, hmantissa, hexponent⟩ := decode_of_unpack h
  have hdouble : Word.ofDouble x = .finite false v := hword
  refine ⟨v, ?_, ?_⟩
  · unfold Magnitude.value
    rw [hmantissa, hexponent]
  · unfold nanoseconds?
    rw [hdouble]

theorem nanoseconds?_of_not_finite {x : Float} (h : x.isFinite = false) : nanoseconds? x = none := by
  have hword := @decode_of_not_finite x.toModel.toBits.toBitVec h
  have hdouble : Word.ofDouble x = WordFormat.double.decode x.toModel.toBits.toBitVec.toNat := rfl
  unfold nanoseconds?
  rcases hword with ⟨negative, hword⟩ | hword
  · rw [hdouble, hword]
  · rw [hdouble, hword]

theorem unpack_of_not_le_zero {x : Float} (hfinite : x.isFinite = true) (h : ¬ x ≤ 0) :
    ∃ m e hm, x.toModel.unpack = .finite .positive m e hm := by
  have hcmp : ¬ (UnpackedFloat.le x.toModel.unpack (.zero .positive)) = true :=
    fun hle => h (decide_eq_true hle)
  have hfinite : x.toModel.unpack.isFinite = true := hfinite
  cases hx : x.toModel.unpack with
  | notANumber => rw [hx] at hfinite; exact absurd hfinite nofun
  | infinity s => rw [hx] at hfinite; exact absurd hfinite nofun
  | zero s => rw [hx] at hcmp; exact absurd rfl hcmp
  | finite s m e hm =>
    cases s with
    | negative => rw [hx] at hcmp; exact absurd rfl hcmp
    | positive => exact ⟨m, e, hm, rfl⟩

theorem delayOf_le {x : Float} {span : Nat} (h : nanoseconds? x = some span) : delayOf x ≤ span := by
  unfold delayOf
  split
  · rw [h]
    exact min_le_left _ _
  · exact Nat.zero_le _

/-- A time less one that is not negative is no longer delay. -/
theorem delayOf_sub_le {a b : Float} {span : Nat} (ha : a.isFinite = true) (hpos : ¬ a ≤ 0)
    (hspan : nanoseconds? a = some span) (hb : b.isFinite = true) (hneg : ¬ b < 0) :
    delayOf (a - b) ≤ span := by
  by_cases hdiff : 0 < a - b
  · obtain ⟨m, e, hm, hx⟩ := unpack_of_not_le_zero ha hpos
    obtain ⟨m', e', hm', hx', hle⟩ := unpack_sub hx hb hneg hdiff
    obtain ⟨v, hv, hnanos⟩ := nanoseconds?_of_unpack hx
    obtain ⟨v', hv', hnanos'⟩ := nanoseconds?_of_unpack hx'
    have hround : (v'.roundTo (-9)).coefficient ≤ (v.roundTo (-9)).coefficient := by
      apply Magnitude.roundTo_mono
      rw [hv, hv']
      exact hle
    rw [hnanos] at hspan
    rw [← Option.some.inj hspan]
    exact (delayOf_le hnanos').trans hround
  · unfold delayOf
    rw [if_neg hdiff]
    exact Nat.zero_le _

/-! ## Valid settings -/

namespace SyncSettings

variable {s : SyncSettings}

theorem Valid.nanoseconds_timeout (h : s.Valid) : ∃ span, nanoseconds? s.timeout = some span := by
  obtain ⟨m, e, hm, hx⟩ := unpack_of_not_le_zero h.timeout_finite h.timeout_pos
  obtain ⟨v, _, hnanos⟩ := nanoseconds?_of_unpack hx
  exact ⟨_, hnanos⟩

theorem mem_offsets_of_get? {t : Topic} {x : Float} (h : s.offsetOf.get? t = some x) :
    x ∈ s.offsets :=
  (List.of_mem_zip (Keyed.mem_of_get?_ofList h)).2

/-- The usual lateness of a topic is finite and not negative; that of one without any is zero. -/
theorem Valid.offset (h : s.Valid) (t : Topic) :
    ((s.offsetOf.get? t).getD 0).isFinite = true ∧ ¬ (s.offsetOf.get? t).getD 0 < 0 := by
  cases ht : s.offsetOf.get? t with
  | none => exact ⟨by rfl, by decide⟩
  | some x =>
    have hmem := mem_offsets_of_get? ht
    exact ⟨h.offset_finite x hmem, h.offset_nonneg x hmem⟩

end SyncSettings

/-- A cloud asks for no more than the timeout of valid settings. -/
theorem Collector.delay_le {c c' : Collector} {s : SyncSettings} {t : Topic} {cloud : Cloud}
    {secs : Float} {span : Nat} (hs : s.Valid) (hspan : nanoseconds? s.timeout = some span)
    (htimeout : c.timeout = s.timeout) (hoffsets : c.offsets = s.offsetOf)
    (ha : c.arrive t cloud = some (.pending (some secs), c')) : delayOf secs ≤ span := by
  obtain ⟨_, _, _, heq⟩ | ⟨_, _, ⟨_, heq⟩ | ⟨_, heq⟩⟩ := arrive_cases ha
  · split at heq
    · cases heq
      rw [htimeout]
      exact delayOf_le hspan
    · exact absurd heq nofun
  · exact absurd heq nofun
  · have hfirst : some secs = c.firstRearm t := Arrival.pending.inj heq
    unfold firstRearm at hfirst
    split at hfirst
    · exact absurd hfirst nofun
    · rw [Option.some.inj hfirst, htimeout, hoffsets]
      obtain ⟨hfinite, hneg⟩ := hs.offset t
      exact delayOf_sub_le hs.timeout_finite hs.timeout_pos hspan hfinite hneg

end LidarSync
