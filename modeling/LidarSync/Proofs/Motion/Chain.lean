import LidarSync.Motion.Compensation
import LidarSync.Proofs.Motion.Orderly

/-!
# Which corrections have an answer

A chain of corrections asks the history for one interval a leg, and it has an answer when all of them
have one (`foldlM_chainLeg_eq_none_iff`). Which intervals these are depends on the stamps alone
(`chainSpans`). A chain that starts at a number stays among the numbers, so it always has an answer
(`chainedCorrection_isSome`). One that starts at what is no number asks for a single interval that
ends there and starts at a number, the first number among its stamps (`gap_chainSpans_iff`).
-/

namespace LidarSync

open Decimal

/-! ## Single corrections -/

theorem History.compensate_eq_none_iff {h : History Float} {start stop : Float} :
    h.compensate start stop = none ↔ ¬ stop < start ∧ h.indexAt stop + 1 < h.indexAt start := by
  unfold compensate query
  by_cases hnone : h.samples.isEmpty ∨ stop < start
  · rw [if_pos hnone]
    refine iff_of_false nofun ?_
    rintro ⟨hnot, hgap⟩
    rcases hnone with hempty | hlt
    · rw [List.isEmpty_iff] at hempty
      unfold indexAt at hgap
      rw [hempty, List.length_nil] at hgap
      omega
    · exact hnot hlt
  · rw [if_neg hnone, if_neg hnone, Option.map_eq_none_iff]
    have hnot : ¬ stop < start := fun hlt => hnone (Or.inr hlt)
    dsimp only
    split
    · next hgap => exact iff_of_true rfl ⟨hnot, hgap⟩
    · next hgap => exact iff_of_false nofun fun h => hgap h.2

/-! ## The intervals of a chain -/

section Spans

variable {stamps : List Float} {stamp x leg : Float}

/-- The intervals that a chain asks for: each leg goes from its stamp to the instant reached before. -/
def chainSpans : Float → List Float → List (Float × Float)
  | _, [] => []
  | reached, leg :: rest => (leg, reached) :: chainSpans (Scalar.least reached leg) rest

theorem least_of_isNaN (hx : x.isNaN = true) : Scalar.least x leg = leg := by
  have hnot : ¬ x ≤ x := by
    intro hle
    rw [isNaN_of_le hle] at hx
    exact absurd hx nofun
  exact if_neg hnot

theorem isNaN_least (hx : x.isNaN = false) : (Scalar.least x leg).isNaN = false := by
  have hle : x ≤ x := (le_iff_place hx hx).2 (Int.le_refl _)
  unfold Scalar.least
  rw [if_pos hle]
  split
  · next hlt => exact isNaN_of_lt hlt
  · exact hx

/-- From a number on, every interval ends at a number. -/
theorem isNaN_of_mem_chainSpans (hstamp : stamp.isNaN = false) {p : Float × Float}
    (hp : p ∈ chainSpans stamp stamps) : p.2.isNaN = false := by
  induction stamps generalizing stamp with
  | nil => exact absurd hp List.not_mem_nil
  | cons leg rest ih =>
    rcases List.mem_cons.1 hp with rfl | hp
    · exact hstamp
    · exact ih (isNaN_least hstamp) hp

/-- Of the intervals that end at what is no number, only the one that starts at the first number is
not all in the first place. -/
theorem exists_chainSpan_iff {place : Float → Nat} (hplace : History.Orderly place) :
    (∃ p ∈ chainSpans stamp stamps, p.2.isNaN = true ∧ 2 ≤ place p.1) ↔
      stamp.isNaN = true ∧ ∃ x, stamps.find? (!·.isNaN) = some x ∧ 2 ≤ place x := by
  cases hstamp : stamp.isNaN with
  | false =>
    refine iff_of_false ?_ (fun hnan => absurd hnan.1 nofun)
    rintro ⟨p, hp, hnan, -⟩
    rw [isNaN_of_mem_chainSpans hstamp hp] at hnan
    exact absurd hnan nofun
  | true =>
    induction stamps generalizing stamp with
    | nil =>
      refine iff_of_false ?_ ?_
      · rintro ⟨p, hp, -⟩
        exact absurd hp List.not_mem_nil
      · rintro ⟨-, x, hx, -⟩
        exact absurd hx nofun
    | cons leg rest ih =>
      unfold chainSpans
      rw [List.exists_mem_cons_iff, least_of_isNaN hstamp]
      cases hleg : leg.isNaN with
      | true =>
        have hfirst := hplace.nan leg hleg
        rw [List.find?_cons_of_neg (by rw [hleg]; nofun), ← ih hleg]
        refine or_iff_right ?_
        rintro ⟨-, htwo⟩
        dsimp only at htwo
        omega
      | false =>
        rw [List.find?_cons_of_pos (by rw [hleg]; rfl)]
        constructor
        · rintro (⟨-, htwo⟩ | ⟨p, hp, hnan, -⟩)
          · exact ⟨rfl, leg, rfl, htwo⟩
          · rw [isNaN_of_mem_chainSpans hleg hp] at hnan
            exact absurd hnan nofun
        · rintro ⟨-, x, hx, htwo⟩
          obtain rfl := Option.some.inj hx
          exact Or.inl ⟨hstamp, htwo⟩

/-- A chain asks for an interval whose places are the wrong way round exactly when it starts at what
is no number and the first number of its stamps is beyond the first two places. -/
theorem gap_chainSpans_iff {place : Float → Nat} (hplace : History.Orderly place) :
    (∃ p ∈ chainSpans stamp stamps, ¬ p.2 < p.1 ∧ place p.2 + 1 < place p.1) ↔
      stamp.isNaN = true ∧ ∃ x, stamps.find? (!·.isNaN) = some x ∧ 2 ≤ place x := by
  rw [← exists_chainSpan_iff hplace]
  constructor
  · rintro ⟨p, hp, hgap⟩
    exact ⟨p, hp, (hplace.gap_iff p.1 p.2).1 hgap⟩
  · rintro ⟨p, hp, hnan⟩
    exact ⟨p, hp, (hplace.gap_iff p.1 p.2).2 hnan⟩

end Spans

/-! ## Chains -/

section Chains

variable {h : History Float} {stamps : List Float} {stamp : Float}

/-- A chain has no answer when the history has none for one of its intervals. -/
theorem foldlM_chainLeg_eq_none_iff (s : Chained Float × Float) :
    stamps.foldlM (chainLeg h) s = none ↔
      ∃ p ∈ chainSpans s.2 stamps, h.compensate p.1 p.2 = none := by
  induction stamps generalizing s with
  | nil =>
    refine iff_of_false nofun ?_
    rintro ⟨p, hp, -⟩
    exact absurd hp List.not_mem_nil
  | cons leg rest ih =>
    rw [List.foldlM_cons]
    unfold chainSpans chainLeg
    rw [List.exists_mem_cons_iff]
    cases hc : h.compensate leg s.2 with
    | none => exact iff_of_true rfl (Or.inl rfl)
    | some c => exact (ih _).trans (or_iff_right nofun).symm

theorem chainedCorrection_eq_none_iff :
    chainedCorrection h stamps stamp = none ↔
      stamp.isNaN = true ∧ ∃ x, stamps.find? (!·.isNaN) = some x ∧ 2 ≤ h.indexAt x := by
  unfold chainedCorrection
  rw [Option.map_eq_none_iff, foldlM_chainLeg_eq_none_iff, ← gap_chainSpans_iff h.orderly_indexAt]
  simp only [History.compensate_eq_none_iff]

theorem chainedCorrection_isSome (hstamp : stamp.isNaN = false) :
    (chainedCorrection h stamps stamp).isSome := by
  rw [← Option.ne_none_iff_isSome, Ne, chainedCorrection_eq_none_iff, hstamp]
  exact fun hnan => absurd hnan.1 nofun

end Chains

end LidarSync
