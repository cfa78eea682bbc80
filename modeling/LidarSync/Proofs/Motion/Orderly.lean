import LidarSync.Proofs.Decimal.Order
import LidarSync.Proofs.Motion.Places

/-!
# Places in a history that need not be in order

A history that is not in order has no well defined place for a stamp; what it finds depends on which
reports it looks at. Whichever way it does, the place for a later stamp is not before the one for an
earlier stamp, and what is no number has the first place (`History.Orderly`). So the two places of an
interval are the wrong way round only where its later end is no number (`History.Orderly.gap_iff`).
-/

namespace LidarSync.History

open Decimal

variable {h : History Float} {start stop x : Float}

/-- Places for stamps that never go down, the first one for what is no number. -/
structure Orderly (place : Float → Nat) : Prop where
  nan : ∀ x, x.isNaN = true → place x = 0
  mono : ∀ x y, x.isNaN = false → y.isNaN = false → x ≤ y → place x ≤ place y

/-- The places of an interval are the wrong way round only where its end is no number. -/
theorem Orderly.gap_iff {place : Float → Nat} (h : Orderly place) (start stop : Float) :
    ¬ stop < start ∧ place stop + 1 < place start ↔ stop.isNaN = true ∧ 2 ≤ place start := by
  cases hstop : stop.isNaN with
  | true =>
    have hfirst := h.nan stop hstop
    have hnot : ¬ stop < start := by
      intro hlt
      rw [isNaN_of_lt hlt] at hstop
      exact absurd hstop nofun
    constructor
    · rintro ⟨-, hgap⟩
      exact ⟨rfl, by omega⟩
    · rintro ⟨-, htwo⟩
      exact ⟨hnot, by omega⟩
  | false =>
    refine iff_of_false ?_ (fun hnan => absurd hnan.1 nofun)
    rintro ⟨hnot, hgap⟩
    cases hstart : start.isNaN with
    | true =>
      have hfirst := h.nan start hstart
      omega
    | false =>
      rw [lt_iff_place hstop hstart] at hnot
      have hmono := h.mono start stop hstart hstop ((le_iff_place hstart hstop).2 (by omega))
      omega

/-- What is older than an instant is older than any later one. -/
theorem older_mono {stamp : Float} (hstart : start.isNaN = false) (hstop : stop.isNaN = false)
    (hle : start ≤ stop) (hlt : stamp < start) : stamp < stop := by
  have hnumber := isNaN_of_lt hlt
  rw [lt_iff_place hnumber hstart] at hlt
  rw [le_iff_place hstart hstop] at hle
  rw [lt_iff_place hnumber hstop]
  omega

theorem orderly_found (h : History Float) (b : Bisection 0 h.samples.length) :
    Orderly (h.found b) where
  nan x hx := by
    have hnone : b.find (h.isOlder x) = 0 := by
      apply b.find_eq (Nat.le_refl 0) (Nat.zero_le _) nofun
      intro i _
      unfold isOlder
      rw [Option.any_eq_false]
      intro v _
      apply decide_eq_false
      intro hlt
      rw [isNaN_of_gt hlt] at hx
      exact absurd hx nofun
    unfold found
    omega
  mono x y hx hy hle := found_mono (fun _ => older_mono hx hy hle) b

theorem orderly_indexAt (h : History Float) : Orderly h.indexAt :=
  h.orderly_found (h.halving h.resets h.samples)

/-- Reports that are not in order: the later one of two older ones stands behind a newer one. -/
def jumbled : History Float :=
  { samples := [⟨1, 0, 0, 0⟩, ⟨1.9, 0, 0, 0⟩, ⟨1.2, 0, 0, 0⟩, ⟨1.3, 0, 0, 0⟩] }

example : jumbled.indexAt 1.5 = 3 := by decide +kernel

/-- Another way of searching them. -/
example : jumbled.found (.probe 1 (.probe 2 (.probe 3 (.found 4) (.found 3)) (.found 2))
    (.probe 0 (.found 1) (.found 0))) 1.5 = 1 := by decide +kernel

end LidarSync.History
