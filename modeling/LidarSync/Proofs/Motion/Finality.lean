import LidarSync.Proofs.Motion.Chain
import LidarSync.Proofs.Motion.Retention

/-!
# Corrections that are final

When reports go on arriving in order, a history gains them at its back and loses some at its front
(`History.suffix_continued`). Whatever place an instant had among the reports that were there, it
moves to the front by the number of those lost (`History.olderThan_drop`), as long as a report that is
not older than the instant was there already and is not lost itself. So a query between two such
instants selects the same reports as before (`History.query_drop`), and a correction that was covered
once stays as it is (`History.compensate_final`).
-/

namespace LidarSync

/-- Dropping elements that pass a test, and appending others behind one that does not, leaves of the
elements in front that pass those that were not dropped. -/
theorem takeWhile_drop_append {β : Type} {p : β → Bool} {xs : List β} (ys : List β) {k : Nat}
    (hk : k ≤ (xs.takeWhile p).length) (hstops : (xs.takeWhile p).length < xs.length) :
    ((xs ++ ys).drop k).takeWhile p = (xs.takeWhile p).drop k := by
  induction xs generalizing k with
  | nil => exact absurd hstops (Nat.not_lt_zero _)
  | cons x rest ih =>
    cases hp : p x with
    | false =>
      rw [List.takeWhile_cons_of_neg (by simp [hp])] at hk ⊢
      obtain rfl : k = 0 := Nat.le_zero.1 hk
      rw [List.drop_zero, List.cons_append, List.takeWhile_cons_of_neg (by simp [hp]), List.drop_zero]
    | true =>
      rw [List.takeWhile_cons_of_pos hp, List.length_cons] at hk hstops
      have hrest : (rest.takeWhile p).length < rest.length := by
        rw [List.length_cons] at hstops
        omega
      cases k with
      | zero =>
        have hwhole := ih (Nat.zero_le _) hrest
        rw [List.drop_zero, List.drop_zero] at hwhole
        rw [List.drop_zero, List.drop_zero, List.cons_append, List.takeWhile_cons_of_pos hp, hwhole,
          List.takeWhile_cons_of_pos hp]
      | succ k =>
        rw [List.cons_append, List.drop_succ_cons, ih (by omega) hrest, List.takeWhile_cons_of_pos hp,
          List.drop_succ_cons]

namespace History

/-! ## Reports gained and lost -/

section Gains

variable {α : Type} [Scalar α] {h : History α} {v : Velocity α} {vs : List (Velocity α)}

/-- The history when more reports have been recorded. -/
def continued (h : History α) (vs : List (Velocity α)) : History α := vs.foldl record h

/-- How many reports are lost at the front when more are recorded. -/
def lost (h : History α) (vs : List (Velocity α)) : Nat :=
  h.samples.length + vs.length - (h.continued vs).samples.length

theorem suffix_record (hforward : ∀ s ∈ h.samples, ¬ v.stamp < s.stamp) :
    (h.record v).samples <:+ h.samples ++ [v] := by
  have hstays : h.rewinds v.stamp = false := by
    unfold rewinds oldest?
    cases hhead : h.samples.head? with
    | none => rfl
    | some s => exact decide_eq_false (hforward s (List.mem_of_mem_head? hhead))
  obtain ⟨gone, hgone⟩ := List.dropWhile_suffix (l := h.samples)
    fun s => decide (s.stamp + retention ≤ v.stamp)
  refine ⟨gone, ?_⟩
  unfold record
  rw [hstays]
  dsimp only
  rw [if_neg Bool.false_ne_true, ← List.append_assoc, hgone]

/-- While the stamps never go down, what a history has is the end of all that it had and was given. -/
theorem suffix_continued (hforward : (h.samples ++ vs).Pairwise fun s t => ¬ t.stamp < s.stamp) :
    (h.continued vs).samples <:+ h.samples ++ vs := by
  induction vs generalizing h with
  | nil =>
    rw [List.append_nil]
    exact List.suffix_rfl
  | cons v rest ih =>
    have hnext : (h.record v).samples <:+ h.samples ++ [v] := by
      apply suffix_record
      intro s hs
      exact (List.pairwise_append.1 hforward).2.2 s hs v List.mem_cons_self
    obtain ⟨gone, hgone⟩ := hnext
    have hwhole : h.samples ++ v :: rest = gone ++ ((h.record v).samples ++ rest) := by
      rw [← List.append_assoc, hgone, List.append_assoc, List.singleton_append]
    rw [hwhole] at hforward ⊢
    exact (ih (List.pairwise_append.1 hforward).2.1).trans (List.suffix_append _ _)

theorem samples_continued (hforward : (h.samples ++ vs).Pairwise fun s t => ¬ t.stamp < s.stamp) :
    (h.continued vs).samples = (h.samples ++ vs).drop (h.lost vs) := by
  have hsuffix := List.suffix_iff_eq_drop.1 (suffix_continued hforward)
  rwa [List.length_append] at hsuffix

end Gains

/-! ## Places that move to the front -/

section Places

variable {α : Type} [Scalar α] {h h' : History α} {vs : List (Velocity α)} {k : Nat} {start stop x : α}
  (hsamples : h'.samples = (h.samples ++ vs).drop k)

include hsamples

theorem olderThan_drop (hsplit : (h.samples ++ vs).Pairwise fun s t => t.stamp < x → s.stamp < x)
    (hk : k ≤ h.olderThan x) (hcovered : h.olderThan x < h.samples.length) :
    h'.olderThan x + k = h.olderThan x := by
  have hbefore := (List.pairwise_append.1 hsplit).1
  have hafter : h'.samples.Pairwise fun s t => t.stamp < x → s.stamp < x := by
    rw [hsamples]
    exact hsplit.sublist (List.drop_sublist k _)
  rw [olderThan_eq hbefore] at hk hcovered ⊢
  rw [olderThan_eq hafter, hsamples, takeWhile_drop_append vs hk hcovered, List.length_drop]
  omega

theorem indexAt_drop (hsplit : (h.samples ++ vs).Pairwise fun s t => t.stamp < x → s.stamp < x)
    (hk : k ≤ h.olderThan x) (hcovered : h.olderThan x < h.samples.length) :
    h.indexAt x = h.olderThan x ∧ h'.indexAt x + k = h.olderThan x := by
  have holder := olderThan_drop hsamples hsplit hk hcovered
  have hlength : h'.samples.length = h.samples.length + vs.length - k := by
    rw [hsamples, List.length_drop, List.length_append]
  unfold indexAt
  omega

theorem query_drop
    (hstart : (h.samples ++ vs).Pairwise fun s t => t.stamp < start → s.stamp < start)
    (hstop : (h.samples ++ vs).Pairwise fun s t => t.stamp < stop → s.stamp < stop)
    (hforward : ¬ stop < start) (holder : h.olderThan start ≤ h.olderThan stop)
    (hk : k ≤ h.olderThan start) (hcovered : h.olderThan stop < h.samples.length) :
    h.samples ≠ [] ∧ h'.samples ≠ [] ∧ h'.query start stop = h.query start stop := by
  obtain ⟨hfirst, hfirst'⟩ := indexAt_drop hsamples hstart hk (by omega)
  obtain ⟨hlast, hlast'⟩ := indexAt_drop hsamples hstop (hk.trans holder) hcovered
  have hlength : h'.samples.length = h.samples.length + vs.length - k := by
    rw [hsamples, List.length_drop, List.length_append]
  have hne : h.samples ≠ [] := List.length_pos_iff.1 (by omega)
  have hne' : h'.samples ≠ [] := List.length_pos_iff.1 (by omega)
  refine ⟨hne, hne', ?_⟩
  have hplace : k + h'.indexAt start = h.indexAt start := by omega
  have hcount : h'.indexAt stop + 1 - h'.indexAt start = h.indexAt stop + 1 - h.indexAt start := by
    omega
  rw [query_of_indexAt_le hne' hforward (by omega), query_of_indexAt_le hne hforward (by omega),
    hsamples, List.drop_drop, hplace, hcount, List.drop_append_of_le_length (by omega),
    List.take_append_of_le_length]
  rw [List.length_drop]
  omega

end Places

/-! ## Corrections -/

theorem compensate_congr {α : Type} [Scalar α] {h h' : History α} {start stop : α}
    (hne : h.samples ≠ []) (hne' : h'.samples ≠ []) (hquery : h'.query start stop = h.query start stop) :
    h'.compensate start stop = h.compensate start stop := by
  have hsome : h.samples.isEmpty = false := by simpa using hne
  have hsome' : h'.samples.isEmpty = false := by simpa using hne'
  unfold compensate
  rw [hsome, hsome', hquery]

open Decimal

variable {h : History Float} {vs : List (Velocity Float)} {start stop x : Float}

/-- Reports whose stamps go on from the newest one that is there without ever going down. -/
def GoesOn (h : History Float) (vs : List (Velocity Float)) : Prop :=
  (h.newest?.toList ++ vs.map (·.stamp)).Pairwise (· ≤ ·)
deriving Decidable

theorem forward_of_le {s t : Velocity Float} (hle : s.stamp ≤ t.stamp) : ¬ t.stamp < s.stamp :=
  (not_lt_iff_le (isNaN_of_ge hle) (isNaN_of_le hle)).2 hle

theorem Ordered.goesOn (hordered : h.Ordered) (hgoes : h.GoesOn vs) :
    (h.samples ++ vs).Pairwise fun s t => s.stamp ≤ t.stamp := by
  obtain ⟨-, hnew, hjoint⟩ := List.pairwise_append.1 hgoes
  refine List.pairwise_append.2 ⟨hordered.ascending, List.pairwise_map.1 hnew, fun s hs v hv => ?_⟩
  rcases List.eq_nil_or_concat h.samples with hempty | ⟨before, newest, hsamples⟩
  · rw [hempty] at hs
    exact absurd hs List.not_mem_nil
  · rw [List.concat_eq_append] at hsamples
    have hnewest : newest.stamp ≤ v.stamp := by
      refine hjoint newest.stamp ?_ v.stamp (List.mem_map_of_mem hv)
      unfold newest?
      rw [hsamples, List.getLast?_concat]
      exact List.mem_singleton_self _
    have hascending := hordered.ascending
    rw [hsamples] at hs hascending
    rcases List.mem_append.1 hs with hs | hs
    · exact le_chain ((List.pairwise_append.1 hascending).2.2 s hs newest
        (List.mem_singleton_self newest)) hnewest
    · rw [List.mem_singleton.1 hs]
      exact hnewest

theorem Ordered.continued (hordered : h.Ordered) (hne : h.samples ≠ []) (hgoes : h.GoesOn vs) :
    (h.continued vs).Ordered := by
  have hascending := hordered.goesOn hgoes
  have hsuffix : (h.continued vs).samples <:+ h.samples ++ vs :=
    suffix_continued (hascending.imp forward_of_le)
  obtain ⟨s, hs⟩ := List.exists_mem_of_ne_nil _ hne
  refine ⟨fun t ht => ?_, hascending.sublist hsuffix.sublist⟩
  rcases List.mem_append.1 (hsuffix.subset ht) with ht | ht
  · exact hordered.numbers t ht
  · exact isNaN_of_ge ((List.pairwise_append.1 hascending).2.2 s hs t ht)

/-- The reports in front of the one that answers for an instant are the older ones, where some report
is not older. -/
theorem olderThan_of_covered (hordered : h.Ordered) (hx : x.isNaN = false)
    (hcovered : ∃ s ∈ h.samples, x ≤ s.stamp) :
    h.olderThan x < h.samples.length ∧ h.answering x = h.olderThan x := by
  obtain ⟨s, hs, hle⟩ := hcovered
  have hlt : h.olderThan x < h.samples.length := by
    rw [olderThan_eq_findIdx (hordered.split hx), List.findIdx_lt_length]
    refine ⟨s, hs, ?_⟩
    simpa using (not_lt_iff_le (hordered.numbers s hs) hx).2 hle
  refine ⟨hlt, ?_⟩
  rw [← hordered.indexAt_eq_answering hx]
  unfold indexAt
  omega

/-- In an ordered history, let some report be no older than the end of an interval. When reports go on
arriving in order, and no report is lost from the first one on that is not older than the start of the
interval, then the correction for the interval stays the same, with its pose and with whether it is cut
short. All ways of halving the history find the places of the interval nearer to the front by as many
reports as were lost. -/
theorem compensate_final (hordered : h.Ordered) (hcovered : ∃ s ∈ h.samples, stop ≤ s.stamp)
    (hle : start ≤ stop) (hgoes : h.GoesOn vs) (hkept : h.lost vs ≤ h.answering start) :
    ∃ c, h.compensate start stop = some c ∧ (h.continued vs).compensate start stop = some c ∧
      ∀ (b : Bisection 0 h.samples.length) (b' : Bisection 0 (h.continued vs).samples.length),
        (h.continued vs).found b' start + h.lost vs = h.found b start ∧
        (h.continued vs).found b' stop + h.lost vs = h.found b stop := by
  have hstart : start.isNaN = false := isNaN_of_le hle
  have hstop : stop.isNaN = false := isNaN_of_ge hle
  have hforward : ¬ stop < start := (not_lt_iff_le hstop hstart).2 hle
  have hascending := hordered.goesOn hgoes
  have hsamples : (h.continued vs).samples = (h.samples ++ vs).drop (h.lost vs) :=
    samples_continued (hascending.imp forward_of_le)
  obtain ⟨s, hs, hend⟩ := hcovered
  obtain ⟨hfirst, hanswers⟩ := olderThan_of_covered hordered hstart ⟨s, hs, le_chain hle hend⟩
  obtain ⟨hlast, -⟩ := olderThan_of_covered hordered hstop ⟨s, hs, hend⟩
  have holder : h.olderThan start ≤ h.olderThan stop :=
    olderThan_mono fun _ => older_mono hstart hstop hle
  rw [hanswers] at hkept
  have hbegin := split_of_ascending hascending hstart
  have hfinish := split_of_ascending hascending hstop
  obtain ⟨hne, hne', hquery⟩ := query_drop hsamples hbegin hfinish hforward holder hkept hlast
  have hcongr := compensate_congr hne hne' hquery
  have hanswer : h.compensate start stop ≠ none := by
    rw [Ne, compensate_eq_none_iff]
    rintro ⟨-, hgap⟩
    have hplaces := h.orderly_indexAt.mono start stop hstart hstop hle
    omega
  obtain ⟨c, hc⟩ := Option.ne_none_iff_exists'.1 hanswer
  refine ⟨c, hc, hcongr.trans hc, fun b b' => ?_⟩
  have hordered' : (h.continued vs).Ordered := hordered.continued hne hgoes
  obtain ⟨hstart', hmoved⟩ := indexAt_drop hsamples hbegin hkept hfirst
  obtain ⟨hstop', hmoved'⟩ := indexAt_drop hsamples hfinish (hkept.trans holder) hlast
  rw [found_eq_indexAt (hordered.split hstart), found_eq_indexAt (hordered.split hstop),
    found_eq_indexAt (hordered'.split hstart), found_eq_indexAt (hordered'.split hstop)]
  omega

/-- Reports a sixteenth of a second apart, two of them at one stamp, and an early one. -/
def dense : History Float :=
  { samples := [⟨0.5, 0, 0, 0⟩, ⟨1, 1, 0, 0.25⟩, ⟨1.0625, 2, 0, 0.5⟩, ⟨1.125, 3, 0, 0.25⟩,
      ⟨1.125, 4, 0, 0⟩] }

/-- Reports that follow, the last of them so late that two are lost. -/
def later : List (Velocity Float) :=
  [⟨1.125, 5, 0, 0⟩, ⟨1.25, 6, 0, 0⟩, ⟨1.5, 7, 0, 1⟩, ⟨2, 8, 0, 1⟩]

theorem compensate_final_dense : dense.lost later = 2 ∧ ∃ c,
    dense.compensate 1.03125 1.125 = some c ∧
    (dense.continued later).compensate 1.03125 1.125 = some c := by
  have hordered : dense.Ordered := ⟨by decide +kernel, by decide +kernel⟩
  have hcovered : ∃ s ∈ dense.samples, (1.125 : Float) ≤ s.stamp := by decide +kernel
  have hkept : dense.lost later ≤ dense.answering 1.03125 := by decide +kernel
  obtain ⟨c, hbefore, hafter, -⟩ := compensate_final hordered hcovered (by decide +kernel)
    (show dense.GoesOn later by decide +kernel) hkept
  exact ⟨by decide +kernel, c, hbefore, hafter⟩

end History

end LidarSync
