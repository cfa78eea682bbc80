import LidarSync.Motion.Bisection

/-!
# What a bisection finds

A search is monotone in its test: a test that more elements pass does not end earlier, wherever the
search looks (`Bisection.find_mono`). Where the elements that pass stand in front of the others, every
search finds their end (`Bisection.find_eq_length_takeWhile`).
-/

namespace LidarSync

namespace Bisection

variable {low high : Nat} {p q : Nat → Bool}

theorem le (b : Bisection low high) : low ≤ high := by
  induction b with
  | found place => exact Nat.le_refl place
  | probe middle above below ihabove ihbelow => omega

theorem find_between (b : Bisection low high) (p : Nat → Bool) :
    low ≤ b.find p ∧ b.find p ≤ high := by
  induction b with
  | found place => exact ⟨Nat.le_refl place, Nat.le_refl place⟩
  | probe middle above below ihabove ihbelow =>
    have habove := above.le
    have hbelow := below.le
    unfold find
    split
    · omega
    · omega

/-- A test that more elements pass is not found to end earlier. -/
theorem find_mono (b : Bisection low high) (hpq : ∀ i, p i = true → q i = true) :
    b.find p ≤ b.find q := by
  induction b with
  | found place => exact Nat.le_refl place
  | probe middle above below ihabove ihbelow =>
    unfold find
    cases hp : p middle with
    | true =>
      rw [hpq middle hp]
      exact ihabove
    | false =>
      cases hq : q middle with
      | true => exact Nat.le_trans (below.find_between p).2 (Nat.le_of_lt (above.find_between q).1)
      | false => exact ihbelow

/-- Where the elements that pass stand in front, every way leads to their end. -/
theorem find_eq (b : Bisection low high) {place : Nat} (hlow : low ≤ place) (hhigh : place ≤ high)
    (hfront : ∀ i < place, p i = true) (hback : ∀ i, place ≤ i → p i = false) :
    b.find p = place := by
  induction b with
  | found other => exact Nat.le_antisymm hlow hhigh
  | @probe low high middle above below ihabove ihbelow =>
    unfold find
    by_cases hmiddle : middle < place
    · rw [if_pos (hfront middle hmiddle)]
      exact ihabove hmiddle hhigh
    · have hnot : ¬ p middle = true := by
        rw [hback middle (by omega)]
        exact Bool.false_ne_true
      rw [if_neg hnot]
      exact ihbelow hlow (by omega)

variable {α : Type} {r : α → Bool} {xs : List α}

/-- Where all elements that pass a test stand in front, a place is among them when its element
passes. -/
theorem any_getElem?_of_pairwise (h : xs.Pairwise fun a b => r b = true → r a = true) (i : Nat) :
    (xs[i]?).any r = decide (i < (xs.takeWhile r).length) := by
  induction xs generalizing i with
  | nil => rfl
  | cons a rest ih =>
    obtain ⟨hfirst, hrest⟩ := List.pairwise_cons.1 h
    cases hr : r a with
    | true =>
      rw [List.takeWhile_cons_of_pos hr]
      cases i with
      | zero => simp [hr]
      | succ i => simpa using ih hrest i
    | false =>
      have hnot : ¬ r a = true := by
        rw [hr]
        exact Bool.false_ne_true
      rw [List.takeWhile_cons_of_neg hnot]
      refine Eq.trans ?_ (decide_eq_false (Nat.not_lt_zero i)).symm
      rw [Option.any_eq_false]
      intro b hb
      rw [← Bool.not_eq_true]
      intro hrb
      rcases List.mem_cons.1 (List.mem_of_getElem? hb) with rfl | hmem
      · exact hnot hrb
      · exact hnot (hfirst b hmem hrb)

/-- Where the elements that pass a test stand in front, every way of searching finds their end. -/
theorem find_eq_length_takeWhile (b : Bisection 0 xs.length)
    (h : xs.Pairwise fun a b => r b = true → r a = true) :
    b.find (fun i => (xs[i]?).any r) = (xs.takeWhile r).length := by
  apply b.find_eq (Nat.zero_le _) (List.takeWhile_prefix r).length_le
  · intro i hi
    exact (any_getElem?_of_pairwise h i).trans (decide_eq_true hi)
  · intro i hi
    exact (any_getElem?_of_pairwise h i).trans (decide_eq_false (Nat.not_lt.2 hi))

end Bisection

end LidarSync
