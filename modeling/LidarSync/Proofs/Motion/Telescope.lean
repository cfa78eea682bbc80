import LidarSync.Proofs.Motion.Walk
import LidarSync.Proofs.Round.Stamps

/-!
# Chains of corrections

Over the reals, the chain that corrects a cloud asks for nothing before the stamp of the cloud: the
legs of newer stamps and the one of its own stamp are no motion (`chainLeg_of_le`). What is left
are the motions between neighbouring stamps, from the earliest stamp of the round up to that of the
cloud (`History.telescope`), one after the other (`chainedCorrection_eq`). Where the integration over
all of them splits at each stamp in between, the chain is that one integration
(`History.telescope_eq`).
-/

namespace LidarSync

/-! ## Descending stamps -/

section Descending

variable {l m newer older : List ℝ} {t x : ℝ}

theorem descendingStamps.dedup_descending {xs : List ℝ} (hsorted : xs.Pairwise (· ≥ ·)) :
    (dedup xs).Pairwise (· > ·) ∧ ∀ x, x ∈ dedup xs ↔ x ∈ xs := by
  fun_induction dedup xs with
  | case1 a b rest heq ih =>
    obtain rfl : a = b := of_decide_eq_true heq
    obtain ⟨hstrict, hmem⟩ := ih (List.pairwise_cons.1 hsorted).2
    refine ⟨hstrict, fun x => ?_⟩
    rw [hmem x]
    simp
  | case2 a b rest hne ih =>
    obtain ⟨hfirst, hrest⟩ := List.pairwise_cons.1 hsorted
    obtain ⟨hstrict, hmem⟩ := ih hrest
    have hab : b < a := by
      apply lt_of_le_of_ne (hfirst b List.mem_cons_self)
      intro heq
      exact hne (decide_eq_true heq.symm)
    refine ⟨List.pairwise_cons.2 ⟨?_, hstrict⟩, fun x => ?_⟩
    · intro x hx
      rcases List.mem_cons.1 ((hmem x).1 hx) with rfl | hx
      · exact hab
      · exact ((List.pairwise_cons.1 hrest).1 x hx).trans_lt hab
    · rw [List.mem_cons, List.mem_cons, hmem x]
  | case3 short hshort =>
    refine ⟨?_, fun x => Iff.rfl⟩
    cases short with
    | nil => exact List.Pairwise.nil
    | cons a rest =>
      cases rest with
      | nil => exact List.pairwise_singleton _ _
      | cons b rest => exact absurd rfl (hshort a b rest)

theorem sorted_mergeSort (l : List ℝ) :
    (l.mergeSort fun a b => Scalar.upTo b a).Pairwise (· ≥ ·) := by
  have hpairs : (l.mergeSort fun a b => Scalar.upTo b a).Pairwise
      fun a b => Scalar.upTo b a = true := by
    apply List.pairwise_mergeSort
    · intro a b c hab hbc
      exact decide_eq_true ((of_decide_eq_true hbc).trans (of_decide_eq_true hab))
    · intro a b
      rw [Bool.or_eq_true]
      exact (le_total b a).imp decide_eq_true decide_eq_true
  exact hpairs.imp fun h => of_decide_eq_true h

theorem descendingStamps_strict (l : List ℝ) : (descendingStamps l).Pairwise (· > ·) :=
  (descendingStamps.dedup_descending (sorted_mergeSort l)).1

theorem mem_descendingStamps : x ∈ descendingStamps l ↔ x ∈ l :=
  ((descendingStamps.dedup_descending (sorted_mergeSort l)).2 x).trans List.mem_mergeSort

theorem le_of_mem_newer (hl : descendingStamps l = newer ++ t :: older) (hx : x ∈ newer) :
    t ≤ x := by
  have hstrict := descendingStamps_strict l
  rw [hl, List.pairwise_append] at hstrict
  exact (hstrict.2.2 x hx t List.mem_cons_self).le

theorem mem_older (hl : descendingStamps l = newer ++ t :: older) :
    x ∈ older ↔ x < t ∧ x ∈ l := by
  have hstrict := descendingStamps_strict l
  have hnewer : x ∈ newer → t ≤ x := le_of_mem_newer hl
  have hmem := mem_descendingStamps (l := l) (x := x)
  rw [hl, List.pairwise_append, List.pairwise_cons] at hstrict
  rw [hl, List.mem_append, List.mem_cons] at hmem
  have holder : x ∈ older → x < t := hstrict.2.1.1 x
  constructor
  · intro hx
    exact ⟨holder hx, hmem.1 (Or.inr (Or.inr hx))⟩
  · rintro ⟨hlt, hx⟩
    rcases hmem.2 hx with hx | rfl | hx
    · exact absurd (hnewer hx) hlt.not_ge
    · exact absurd hlt (lt_irrefl x)
    · exact hx

/-- Rounds with the same stamps up to one of them have the same stamps from it on. -/
theorem descendingStamps_congr (hl : descendingStamps l = newer ++ t :: older)
    (hsame : ∀ x ≤ t, x ∈ m ↔ x ∈ l) : ∃ newer', descendingStamps m = newer' ++ t :: older := by
  have ht : t ∈ l := by
    rw [← mem_descendingStamps, hl]
    simp
  obtain ⟨newer', older', hm⟩ :=
    List.append_of_mem (mem_descendingStamps.2 ((hsame t le_rfl).2 ht))
  have hstrict (k : List ℝ) {front back : List ℝ} (hk : descendingStamps k = front ++ t :: back) :
      back.Pairwise (· > ·) := by
    have hall := descendingStamps_strict k
    rw [hk, List.pairwise_append, List.pairwise_cons] at hall
    exact hall.2.1.2
  refine ⟨newer', ?_⟩
  rw [hm, (hstrict m hm).eq_of_mem_iff (hstrict l hl)]
  intro x
  rw [mem_older hm, mem_older hl]
  exact and_congr_right fun hlt => hsame x hlt.le

end Descending

/-! ## Legs -/

namespace History

/-- The motions between the neighbours of a descending list of stamps, one after the other from the
earliest stamp on, and how many of them are cut short. -/
noncomputable def telescope (h : History ℝ) : List ℝ → Chained ℝ
  | t :: u :: older =>
    ⟨(telescope h (u :: older)).pose * (h.motion u t).pose,
      (telescope h (u :: older)).truncations + if (h.motion u t).truncated then 1 else 0⟩
  | _ => ⟨Pose.identity, 0⟩

variable {h : History ℝ} {t u r : ℝ} {newer older : List ℝ}

theorem exists_toPose_telescope (h : History ℝ) (stamps : List ℝ) :
    ∃ d : Drift ℝ, (h.telescope stamps).pose = d.toPose := by
  induction stamps with
  | nil => exact ⟨Drift.none, Drift.toPose_none.symm⟩
  | cons t older ih =>
    cases older with
    | nil => exact ⟨Drift.none, Drift.toPose_none.symm⟩
    | cons u older =>
      obtain ⟨d, hd⟩ := ih
      refine ⟨d.andThen (h.drift u t), ?_⟩
      rw [Drift.toPose_andThen, ← hd]
      rfl

/-- A leg that does not lead back in time leaves a chain as it is. -/
theorem chainLeg_of_le (htu : t ≤ u) (d : Drift ℝ) (n : Nat) :
    chainLeg h (⟨d.toPose, n⟩, t) u = some (⟨d.toPose, n⟩, t) := by
  have hnone : h.compensate u t = some ⟨Pose.identity, false⟩ := by
    rcases htu.eq_or_lt with rfl | hlt
    · exact h.compensate_self t
    · exact if_pos (Or.inr hlt)
  have hleast : Scalar.least t u = t := by
    simp [Scalar.least, htu.not_gt]
  simp [chainLeg, hnone, hleast]

/-- A leg puts the motion from its stamp to the instant reached in front of a chain. -/
theorem chainLeg_eq (h : History ℝ) (d : Drift ℝ) (n : Nat) (t u : ℝ) :
    chainLeg h (⟨d.toPose, n⟩, t) u = some (⟨((h.drift u t).andThen d).toPose,
      n + if (h.motion u t).truncated then 1 else 0⟩, Scalar.least t u) := by
  simp only [chainLeg, compensate_eq, Option.map_some, Drift.toPose_andThen]
  rfl

theorem chainLeg_of_lt (hut : u < t) (d : Drift ℝ) (n : Nat) :
    chainLeg h (⟨d.toPose, n⟩, t) u = some (⟨((h.drift u t).andThen d).toPose,
      n + if (h.motion u t).truncated then 1 else 0⟩, u) := by
  have hleast : Scalar.least t u = u := by
    simp [Scalar.least, hut]
  rw [chainLeg_eq, hleast]

theorem foldlM_chainLeg_newer (hnewer : ∀ x ∈ newer, t ≤ x) (d : Drift ℝ) (n : Nat) :
    newer.foldlM (chainLeg h) (⟨d.toPose, n⟩, t) = some (⟨d.toPose, n⟩, t) := by
  induction newer with
  | nil => rfl
  | cons x rest ih =>
    rw [List.forall_mem_cons] at hnewer
    rw [List.foldlM_cons, chainLeg_of_le hnewer.1]
    exact ih hnewer.2

theorem foldlM_chainLeg_older (hstrict : (t :: older).Pairwise (· > ·)) (d : Drift ℝ) (n : Nat) :
    (older.foldlM (chainLeg h) (⟨d.toPose, n⟩, t)).map Prod.fst
      = some ⟨(h.telescope (t :: older)).pose * d.toPose,
          n + (h.telescope (t :: older)).truncations⟩ := by
  induction older generalizing t d n with
  | nil => simp [telescope]
  | cons u older ih =>
    obtain ⟨hfirst, hrest⟩ := List.pairwise_cons.1 hstrict
    obtain ⟨e, he⟩ := h.exists_toPose_telescope (u :: older)
    rw [List.foldlM_cons, chainLeg_of_lt (hfirst u List.mem_cons_self)]
    refine (ih hrest _ _).trans ?_
    simp only [telescope, he, motion, ← Drift.toPose_andThen, Drift.andThen_assoc]
    congr 2
    omega

/-- The chain for one of the stamps of a round: the motions between the stamps from the earliest one
up to it. -/
theorem chainedCorrection_eq {l : List ℝ} (hl : descendingStamps l = newer ++ t :: older) :
    chainedCorrection h (descendingStamps l) t = some (h.telescope (t :: older)) := by
  have hstrict := descendingStamps_strict l
  have hnewer : ∀ x ∈ newer ++ [t], t ≤ x := by
    simp only [List.forall_mem_append, List.forall_mem_singleton]
    exact ⟨fun x hx => le_of_mem_newer hl hx, le_rfl⟩
  obtain ⟨d, hd⟩ := h.exists_toPose_telescope (t :: older)
  rw [hl, List.pairwise_append] at hstrict
  unfold chainedCorrection
  rw [hl, List.append_cons, List.foldlM_append, ← Drift.toPose_none,
    foldlM_chainLeg_newer hnewer]
  refine (foldlM_chainLeg_older hstrict.2.1 _ _).trans ?_
  rw [hd, ← Drift.toPose_andThen, Drift.andThen_none, ← hd, Nat.zero_add]

/-! ## One integration instead -/

/-- A chain whose single integration splits at all stamps in between is that integration. -/
theorem telescope_eq (hsorted : h.samples.Pairwise fun v w => v.stamp ≤ w.stamp)
    (hstrict : (t :: older).Pairwise (· > ·)) (hlast : (t :: older).getLast? = some r)
    (hfits : ∀ x ∈ h.walk r t, fits x) (hsplits : ∀ u ∈ older, u ≠ r → h.SplitsAt r u) :
    h.telescope (t :: older) = ⟨(h.drift r t).toPose, 0⟩ := by
  induction older generalizing t with
  | nil =>
    obtain rfl : t = r := by simpa using hlast
    simp [telescope]
  | cons u older ih =>
    obtain ⟨hfirst, hrest⟩ := List.pairwise_cons.1 hstrict
    rw [List.getLast?_cons_cons] at hlast
    rw [List.forall_mem_cons] at hsplits
    have hut : u ≤ t := (hfirst u List.mem_cons_self).le
    have hru : r ≤ u := by
      rcases List.mem_cons.1 (List.mem_of_getLast? hlast) with heq | hmem
      · exact heq.le
      · exact ((List.pairwise_cons.1 hrest).1 r hmem).le
    obtain ⟨hbefore, hleg⟩ := fits_split hsorted hru hut hfits
    have hmotion : h.motion u t = ⟨(h.drift u t).toPose, false⟩ := by
      simpa [compensate_eq] using compensate_of_fits hleg
    have hdrift : h.drift r t = (h.drift r u).andThen (h.drift u t) := by
      by_cases heq : u = r
      · simp [heq]
      · exact drift_split hsorted hru hut hfits (Or.inr (hsplits.1 heq))
    simp [telescope, ih hrest hlast hbefore hsplits.2, hmotion, hdrift, Drift.toPose_andThen]

/-- The chain of a stamp in any round: it goes through the stamps of the round from the earliest one
up to it, is the chain of the stamp before it with one motion more, and is no motion for the earliest
stamp. How often a stamp occurs and which stamps are later does not matter. Where the integration over
all stamps splits at those in between, it is that integration. -/
theorem chainedCorrection_telescopes (h : History ℝ) {l newer older : List ℝ} {t : ℝ}
    (hl : descendingStamps l = newer ++ t :: older) :
    ((descendingStamps l).Pairwise (· > ·) ∧ ∀ x, x ∈ descendingStamps l ↔ x ∈ l) ∧
    chainedCorrection h (descendingStamps l) t = some (h.telescope (t :: older)) ∧
    (older = [] → chainedCorrection h (descendingStamps l) t = some ⟨Pose.identity, 0⟩) ∧
    (∀ u rest, older = u :: rest → ∃ p c,
      chainedCorrection h (descendingStamps l) u = some p ∧ h.compensate u t = some c ∧
      chainedCorrection h (descendingStamps l) t
        = some ⟨p.pose * c.pose, p.truncations + if c.truncated then 1 else 0⟩) ∧
    (∀ m, (∀ x ≤ t, x ∈ m ↔ x ∈ l) →
      chainedCorrection h (descendingStamps m) t = chainedCorrection h (descendingStamps l) t) ∧
    ∀ r, (t :: older).getLast? = some r →
      (h.samples.Pairwise fun v w => v.stamp ≤ w.stamp) → (∀ x ∈ h.walk r t, fits x) →
      (∀ u ∈ older, u ≠ r → h.SplitsAt r u) →
      ∃ p, h.compensate r t = some ⟨p, false⟩ ∧
        chainedCorrection h (descendingStamps l) t = some ⟨p, 0⟩ := by
  have hchain := chainedCorrection_eq (h := h) hl
  refine ⟨⟨descendingStamps_strict l, fun x => mem_descendingStamps⟩, hchain, ?_, ?_, ?_, ?_⟩
  · rintro rfl
    exact hchain
  · rintro u rest rfl
    have hbefore : descendingStamps l = (newer ++ [t]) ++ u :: rest := by simp [hl]
    exact ⟨_, _, chainedCorrection_eq hbefore, h.compensate_eq u t, hchain⟩
  · intro m hsame
    obtain ⟨newer', hm⟩ := descendingStamps_congr hl hsame
    rw [hchain, chainedCorrection_eq hm]
  · intro r hlast hsorted hfits hsplits
    have hstrict := descendingStamps_strict l
    rw [hl, List.pairwise_append] at hstrict
    rw [telescope_eq hsorted hstrict.2.1 hlast hfits hsplits] at hchain
    exact ⟨_, compensate_of_fits hfits, hchain⟩

theorem descendingStamps_of_strict {l : List ℝ} (hstrict : l.Pairwise (· > ·)) :
    descendingStamps l = l :=
  (descendingStamps_strict l).eq_of_mem_iff hstrict fun _ => mem_descendingStamps

theorem chainedCorrection_bend : ∃ p, bend.compensate (19 / 20) (21 / 20) = some ⟨p, false⟩ ∧
    chainedCorrection bend (descendingStamps [21 / 20, 1, 19 / 20]) (21 / 20) = some ⟨p, 0⟩ := by
  have hl : descendingStamps [21 / 20, 1, (19 / 20 : ℝ)] = [] ++ 21 / 20 :: [1, 19 / 20] :=
    descendingStamps_of_strict (by norm_num)
  obtain ⟨-, -, -, -, -, hone⟩ := chainedCorrection_telescopes bend hl
  refine hone (19 / 20) rfl sorted_bend fits_bend ?_
  simp only [List.forall_mem_cons]
  exact ⟨fun _ => Or.inl isInnerStamp_bend, fun hne => absurd rfl hne, nofun⟩

/-- Beyond the last report, a chain over the stamp of that report is not one integration. -/
theorem chainedCorrection_fails_at_newest : ∃ c p,
    (lone.samples.Pairwise fun v w => v.stamp ≤ w.stamp) ∧
    (∀ x ∈ lone.walk (31 / 32) (33 / 32), fits x) ∧ (∃ v ∈ lone.samples, v.stamp = 1) ∧
    chainedCorrection lone (descendingStamps [33 / 32, 1, 31 / 32]) (33 / 32) = some c ∧
    lone.compensate (31 / 32) (33 / 32) = some ⟨p, false⟩ ∧ c.pose ≠ p := by
  have hl : descendingStamps [33 / 32, 1, (31 / 32 : ℝ)] = [] ++ 33 / 32 :: [1, 31 / 32] :=
    descendingStamps_of_strict (by norm_num)
  have hfits := fits_lone (a := 31 / 32) (b := 33 / 32) (by norm_num) (by norm_num)
  refine ⟨_, _, List.pairwise_singleton _ _, hfits, ⟨_, List.mem_singleton_self _, rfl⟩,
    chainedCorrection_eq hl, compensate_of_fits hfits, ?_⟩
  have hne := toPose_lone_ne
  simpa [telescope, motion] using hne.symm

end History

end LidarSync
