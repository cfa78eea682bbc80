import LidarSync.Proofs.Decimal.Order
import LidarSync.Round.Alignment
import Mathlib.Data.List.Sort

/-!
# The stamps of a round

`descendingStamps` sorts the stamps of a round, the latest first, and drops what equals the stamp
before it. Its stamps are stamps of the round (`descendingStamps_subset`), and its last one is not
above any of them when all are numbers (`descendingStamps_least`).
-/

namespace LidarSync

open Decimal

namespace descendingStamps

variable {α : Type} [Scalar α]

theorem dedup_eq_nil_iff (xs : List α) : dedup xs = [] ↔ xs = [] := by
  fun_induction dedup xs with
  | case1 a b rest heq ih => exact ih.trans (iff_of_false nofun nofun)
  | case2 a b rest hne ih => exact iff_of_false nofun nofun
  | case3 short hshort => rfl

theorem dedup_sublist (xs : List α) : (dedup xs).Sublist xs := by
  fun_induction dedup xs with
  | case1 a b rest heq ih => exact ih.trans ((List.sublist_cons_self b rest).cons_cons a)
  | case2 a b rest hne ih => exact ih.cons_cons a
  | case3 short hshort => exact List.Sublist.refl short

end descendingStamps

section Numbers

variable {α : Type} [Scalar α]

theorem descendingStamps_eq_nil_iff (xs : List α) : descendingStamps xs = [] ↔ xs = [] := by
  unfold descendingStamps
  rw [descendingStamps.dedup_eq_nil_iff, ← List.length_eq_zero_iff, List.length_mergeSort,
    List.length_eq_zero_iff]

theorem descendingStamps_subset (xs : List α) : descendingStamps xs ⊆ xs := by
  intro x hx
  have hmem := (descendingStamps.dedup_sublist _).subset hx
  exact List.mem_mergeSort.1 hmem

end Numbers

/-! ## The least stamp -/

/-- What is left of descending numbers ends in the least one. -/
theorem descendingStamps.place_getLast_dedup {xs : List Float} {y : Float}
    (hsorted : xs.Pairwise fun a b => place b ≤ place a)
    (hnumbers : ∀ x ∈ xs, x.isNaN = false) (hy : (dedup xs).getLast? = some y) :
    ∀ x ∈ xs, place y ≤ place x := by
  fun_induction dedup xs with
  | case1 a b rest heq ih =>
    obtain ⟨hfirst, hsorted⟩ := List.pairwise_cons.1 hsorted
    obtain ⟨-, hrest⟩ := List.pairwise_cons.1 hsorted
    have ha := hnumbers a List.mem_cons_self
    have hb := hnumbers b (List.mem_cons_of_mem a List.mem_cons_self)
    have hsame : place a = place b := (beq_iff_place ha hb).1 heq
    have hleast : ∀ x ∈ a :: rest, place y ≤ place x := by
      apply ih
      · exact List.pairwise_cons.2 ⟨fun x hx => hfirst x (List.mem_cons_of_mem b hx), hrest⟩
      · intro x hx
        rcases List.mem_cons.1 hx with rfl | hx
        · exact ha
        · exact hnumbers x (List.mem_cons_of_mem a (List.mem_cons_of_mem b hx))
      · exact hy
    intro x hx
    rcases List.mem_cons.1 hx with rfl | hx
    · exact hleast x List.mem_cons_self
    rcases List.mem_cons.1 hx with rfl | hx
    · have hle := hleast a List.mem_cons_self
      omega
    · exact hleast x (List.mem_cons_of_mem a hx)
  | case2 a b rest hne ih =>
    obtain ⟨hfirst, hsorted⟩ := List.pairwise_cons.1 hsorted
    have hlast : (dedup (b :: rest)).getLast? = some y := by
      rw [List.getLast?_cons] at hy
      cases h : (dedup (b :: rest)).getLast? with
      | none =>
        rw [List.getLast?_eq_none_iff, dedup_eq_nil_iff] at h
        exact absurd h nofun
      | some z =>
        rw [h] at hy
        exact hy
    have hleast := ih hsorted (fun x hx => hnumbers x (List.mem_cons_of_mem a hx)) hlast
    intro x hx
    rcases List.mem_cons.1 hx with rfl | hx
    · have hle := hleast b List.mem_cons_self
      have hnext := hfirst b List.mem_cons_self
      omega
    · exact hleast x hx
  | case3 short hshort =>
    cases short with
    | nil => exact nofun
    | cons a rest =>
      cases rest with
      | nil =>
        intro x hx
        have hlast : a = y := Option.some.inj hy
        rw [List.mem_singleton.1 hx, hlast]
      | cons b rest => exact absurd rfl (hshort a b rest)

/-- What is dropped has the place of a stamp that stays. -/
theorem descendingStamps.exists_mem_dedup {xs : List Float} {y : Float} (hy : y ∈ xs)
    (hnumber : y.isNaN = false) : ∃ z ∈ dedup xs, z.isNaN = false ∧ place z = place y := by
  fun_induction dedup xs generalizing y with
  | case1 a b rest heq ih =>
    obtain ⟨ha, hb⟩ := isNaN_of_beq heq
    rcases List.mem_cons.1 hy with rfl | hy
    · exact ih List.mem_cons_self hnumber
    rcases List.mem_cons.1 hy with rfl | hy
    -- What is dropped is as good as the stamp before it.
    · obtain ⟨z, hz, hza, hplace⟩ := ih List.mem_cons_self ha
      exact ⟨z, hz, hza, hplace.trans ((beq_iff_place ha hb).1 heq)⟩
    · exact ih (List.mem_cons_of_mem a hy) hnumber
  | case2 a b rest hne ih =>
    rcases List.mem_cons.1 hy with rfl | hy
    · exact ⟨_, List.mem_cons_self, hnumber, rfl⟩
    · obtain ⟨z, hz, hplace⟩ := ih hy hnumber
      exact ⟨z, List.mem_cons_of_mem a hz, hplace⟩
  | case3 short hshort => exact ⟨y, hy, hnumber, rfl⟩

/-- The order in which stamps are sorted, the latest first. -/
theorem pairwise_mergeSort_upTo (xs : List Float) :
    (xs.mergeSort fun a b => Scalar.upTo b a).Pairwise fun a b => Scalar.upTo b a = true := by
  apply List.pairwise_mergeSort
  · intro a b c hab hbc
    have hab : floatRank b ≤ floatRank a := of_decide_eq_true hab
    have hbc : floatRank c ≤ floatRank b := of_decide_eq_true hbc
    exact decide_eq_true (hbc.trans hab)
  · intro a b
    rw [Bool.or_eq_true]
    rcases le_total (floatRank b) (floatRank a) with hle | hle
    · exact Or.inl (decide_eq_true hle)
    · exact Or.inr (decide_eq_true hle)

theorem descendingStamps_pairwise (xs : List Float) :
    (descendingStamps xs).Pairwise fun a b => place b ≤ place a :=
  ((pairwise_mergeSort_upTo xs).sublist (descendingStamps.dedup_sublist _)).imp
    fun h => place_le_of_upTo h

/-- The first number among the descending stamps is the greatest number of all. -/
theorem descendingStamps_greatest {xs : List Float} {y : Float} (hy : y ∈ xs)
    (hnumber : y.isNaN = false) :
    ∃ x, (descendingStamps xs).find? (!·.isNaN) = some x ∧ x.isNaN = false ∧ y ≤ x := by
  obtain ⟨z, hz, hzn, hplace⟩ :=
    descendingStamps.exists_mem_dedup (List.mem_mergeSort.2 hy) hnumber
  have hz : z ∈ descendingStamps xs := hz
  have hsome : ((descendingStamps xs).find? (!·.isNaN)).isSome :=
    List.find?_isSome.2 ⟨z, hz, by rw [hzn]; rfl⟩
  obtain ⟨x, hx⟩ := Option.isSome_iff_exists.1 hsome
  obtain ⟨hxn, before, after, heq, hbefore⟩ := List.find?_eq_some_iff_append.1 hx
  have hxn : x.isNaN = false := (Bool.not_eq_true' _).mp hxn
  refine ⟨x, hx, hxn, (le_iff_place hnumber hxn).2 ?_⟩
  have hsorted := descendingStamps_pairwise xs
  rw [heq] at hz hsorted
  rw [← hplace]
  rcases List.mem_append.1 hz with hz | hz
  · have hnot := hbefore z hz
    rw [hzn] at hnot
    exact absurd hnot nofun
  rcases List.mem_cons.1 hz with rfl | hz
  · exact Int.le_refl _
  · obtain ⟨-, hsorted, -⟩ := List.pairwise_append.1 hsorted
    exact (List.pairwise_cons.1 hsorted).1 z hz

/-- The last of the descending stamps is the least of all, when all are numbers. -/
theorem descendingStamps_least {xs : List Float} {y : Float}
    (hnumbers : ∀ x ∈ xs, x.isNaN = false) (hy : (descendingStamps xs).getLast? = some y) :
    ∀ x ∈ xs, y ≤ x := by
  intro x hx
  have hmem : y ∈ xs := descendingStamps_subset xs (List.mem_of_getLast? hy)
  rw [le_iff_place (hnumbers y hmem) (hnumbers x hx)]
  have hsorted := (pairwise_mergeSort_upTo xs).imp fun h => place_le_of_upTo h
  apply descendingStamps.place_getLast_dedup hsorted
  · exact fun z hz => hnumbers z (List.mem_mergeSort.1 hz)
  · exact hy
  · exact List.mem_mergeSort.2 hx

end LidarSync
