import LidarSync.Proofs.Decimal.Sum
import LidarSync.Proofs.Motion.Selection

/-!
# What a history retains

`Journal` remembers every report since the clock last went back, and says of all of them at once which
are retained: the newest one and those less than a second older. A history looks only at its front when
a report arrives, and drops there until one report stays. It retains the same reports
(`History.record_retains`), because the reports since the clock went back are in order, and what is
stale for one report is stale for every later one.
-/

namespace LidarSync

open Decimal

/-! ## Stale reports -/

/-- A report is a second older than an instant, or more. -/
def Velocity.Stale (s : Velocity Float) (x : Float) : Prop := s.stamp + 1.0 ≤ x
deriving Decidable

namespace Velocity

variable {s t : Velocity Float} {x y : Float}

theorem Stale.later (hs : s.Stale x) (hle : x ≤ y) : s.Stale y := le_chain hs hle

/-- What is not newer than a stale report is stale. -/
theorem Stale.older (ht : t.Stale x) (hle : s.stamp ≤ t.stamp) : s.Stale x :=
  le_chain (add_le_add_of_isFinite (by decide +kernel) hle) ht

end Velocity

/-! ## A journal of reports -/

/-- All reports since the clock last went back, and how often it did. -/
structure Journal where
  since : List (Velocity Float) := []
  rewinds : Nat := 0

namespace Journal

/-- The newest report, and those before it that are less than a second older. -/
def retained (j : Journal) : List (Velocity Float) :=
  match j.since.getLast? with
  | none => []
  | some newest => (j.since.dropLast.filter fun s => ¬ s.Stale newest.stamp) ++ [newest]

/-- Enters a report. One that is older than all that is retained shows that the clock went back. -/
def enter (j : Journal) (v : Velocity Float) : Journal :=
  if j.retained.head?.any fun oldest => v.stamp < oldest.stamp then ⟨[v], j.rewinds + 1⟩
  else ⟨j.since ++ [v], j.rewinds⟩

def ofReports (vs : List (Velocity Float)) : Journal := vs.foldl enter {}

theorem retained_concat (vs : List (Velocity Float)) (v : Velocity Float) (n : Nat) :
    retained ⟨vs ++ [v], n⟩ = (vs.filter fun s => ¬ s.Stale v.stamp) ++ [v] := by
  unfold retained
  rw [List.getLast?_concat, List.dropLast_concat]

theorem cases_since (j : Journal) : j = ⟨[], j.rewinds⟩ ∨ ∃ before newest,
    j = ⟨before ++ [newest], j.rewinds⟩ := by
  obtain ⟨since, n⟩ := j
  rcases List.eq_nil_or_concat since with rfl | ⟨before, newest, rfl⟩
  · exact Or.inl rfl
  · exact Or.inr ⟨before, newest, by rw [List.concat_eq_append]⟩

/-- In order, what the newest report is not above, no report is above. -/
theorem le_of_ascending {j : Journal} {x : Float}
    (hascending : j.since.Pairwise fun s t => s.stamp ≤ t.stamp)
    (hle : ∀ newest ∈ j.since.getLast?, newest.stamp ≤ x) : ∀ s ∈ j.since, s.stamp ≤ x := by
  intro s hs
  rcases j.cases_since with hj | ⟨before, newest, hj⟩
  · rw [hj] at hs
    exact absurd hs List.not_mem_nil
  · rw [hj, List.pairwise_append] at hascending
    rw [hj, List.getLast?_concat] at hle
    rw [hj] at hs
    have hx : newest.stamp ≤ x := hle newest rfl
    rcases List.mem_append.1 hs with hs | hs
    · exact le_chain (hascending.2.2 s hs newest (List.mem_singleton_self newest)) hx
    · rw [List.mem_singleton.1 hs]
      exact hx

theorem retained_sublist (j : Journal) : j.retained.Sublist j.since := by
  rcases j.cases_since with hj | ⟨before, newest, hj⟩
  · rw [hj]
    exact List.Sublist.refl []
  · rw [hj, retained_concat]
    exact List.filter_sublist.append_right [newest]

/-- The newest report is retained. -/
theorem getLast?_retained (j : Journal) : j.retained.getLast? = j.since.getLast? := by
  rcases j.cases_since with hj | ⟨before, newest, hj⟩
  · rw [hj]
    rfl
  · rw [hj, retained_concat, List.getLast?_concat, List.getLast?_concat]

/-- What is stale now stays so: later, the reports that are retained tell which of all are not. -/
theorem filter_retained {j : Journal} {x : Float}
    (hle : ∀ newest ∈ j.since.getLast?, newest.stamp ≤ x) :
    (j.retained.filter fun s => ¬ s.Stale x) = j.since.filter fun s => ¬ s.Stale x := by
  rcases j.cases_since with hj | ⟨before, newest, hj⟩
  · rw [hj]
    rfl
  · rw [hj, List.getLast?_concat] at hle
    have hstale (s : Velocity Float) (hs : s.Stale newest.stamp) : s.Stale x :=
      hs.later (hle newest rfl)
    rw [hj, retained_concat, List.filter_append, List.filter_append, List.filter_filter]
    congr 1
    apply List.filter_congr
    intro s _
    simpa using mt (hstale s)

/-- Unless adding a second leaves the newest stamp where it is, one condition tells what is retained. -/
theorem retained_eq_filter {j : Journal} {newest : Velocity Float}
    (hnewest : j.since.getLast? = some newest) (hfresh : ¬ newest.Stale newest.stamp) :
    j.retained = j.since.filter fun s => ¬ s.Stale newest.stamp := by
  rcases j.cases_since with hj | ⟨before, w, hj⟩
  · rw [hj] at hnewest
    exact absurd hnewest nofun
  · rw [hj, List.getLast?_concat] at hnewest
    cases hnewest
    rw [hj, retained_concat, List.filter_append, List.filter_singleton]
    simp [hfresh]

/-- Whatever is entered, it is the newest report, and all since the clock went back is in one piece. -/
theorem since_ofReports (vs : List (Velocity Float)) :
    (ofReports vs).since <:+ vs ∧ (ofReports vs).since.getLast? = vs.getLast? := by
  induction vs using List.reverseRecOn with
  | nil => exact ⟨List.suffix_rfl, rfl⟩
  | append_singleton vs v ih =>
    have hconcat : ofReports (vs ++ [v]) = (ofReports vs).enter v :=
      List.foldl_concat _ _ _ _
    rw [hconcat, enter]
    split
    · exact ⟨List.suffix_append vs [v], by rw [List.getLast?_concat]; rfl⟩
    · obtain ⟨before, hbefore⟩ := ih.1
      refine ⟨⟨before, ?_⟩, by rw [List.getLast?_concat, List.getLast?_concat]⟩
      rw [← List.append_assoc, hbefore]

end Journal

/-! ## Retention -/

/-- Where what stands in front of an unwanted element is unwanted too, dropping in front leaves just
what is wanted. -/
theorem dropWhile_eq_filter {β : Type} {p : β → Bool} {xs : List β}
    (hsplit : xs.Pairwise fun a b => p b = true → p a = true) :
    xs.dropWhile p = xs.filter fun a => !p a := by
  induction xs with
  | nil => rfl
  | cons a rest ih =>
    obtain ⟨hfirst, hrest⟩ := List.pairwise_cons.1 hsplit
    cases hp : p a with
    | true => simp [hp, ih hrest]
    | false =>
      have hall : ∀ b ∈ rest, (!p b) = true := by
        intro b hb
        cases hpb : p b with
        | false => rfl
        | true =>
          rw [hfirst b hb hpb] at hp
          exact absurd hp nofun
      simp [hp, List.filter_eq_self.2 hall]

namespace History

variable {h : History Float} {j : Journal} {v : Velocity Float} {vs : List (Velocity Float)}

/-- A report whose stamp is a number and does not fall between those that are kept: it is not older
than the newest one, or the clock went back. -/
def Admits (h : History Float) (v : Velocity Float) : Prop :=
  v.stamp.isNaN = false ∧
    ((∀ newest ∈ h.newest?, newest ≤ v.stamp) ∨ ∃ oldest ∈ h.oldest?, v.stamp < oldest)
deriving Decidable

/-- Reports each of which is admitted when it arrives. -/
def AdmitsAll (h : History Float) : List (Velocity Float) → Prop
  | [] => True
  | v :: vs => h.Admits v ∧ (h.record v).AdmitsAll vs

instance decidableAdmitsAll : (h : History Float) → (vs : List (Velocity Float)) →
    Decidable (h.AdmitsAll vs)
  | _, [] => .isTrue trivial
  | h, v :: vs => @instDecidableAnd _ _ _ (decidableAdmitsAll (h.record v) vs)

def ofReports (vs : List (Velocity Float)) : History Float := vs.foldl record .empty

theorem rewinds_iff (h : History Float) (x : Float) :
    h.rewinds x = true ↔ ∃ oldest ∈ h.oldest?, x < oldest := by
  unfold rewinds
  cases h.oldest? with
  | none => simp
  | some oldest => simp

/-- A history retains what a journal does, whose reports since the clock went back are in order. -/
structure Keeps (h : History Float) (j : Journal) : Prop where
  samples : h.samples = j.retained
  resets : h.resets = j.rewinds
  numbers : ∀ s ∈ j.since, s.stamp.isNaN = false
  ascending : j.since.Pairwise fun s t => s.stamp ≤ t.stamp

theorem keeps_empty : Keeps .empty {} := ⟨rfl, rfl, nofun, List.Pairwise.nil⟩

theorem record_of_rewinds (hback : h.rewinds v.stamp = true) :
    h.record v = { h with samples := [v], resets := h.resets + 1 } := by
  unfold record
  rw [if_pos hback, if_pos hback]
  rfl

/-- Without a step back, what is dropped in front is what is stale. -/
theorem record_of_ascending (hforward : ¬ h.rewinds v.stamp = true)
    (hascending : h.samples.Pairwise fun s t => s.stamp ≤ t.stamp) :
    h.record v = { h with samples := (h.samples.filter fun s => ¬ s.Stale v.stamp) ++ [v] } := by
  have hsplit : h.samples.Pairwise fun s t =>
      decide (t.Stale v.stamp) = true → decide (s.Stale v.stamp) = true := by
    refine hascending.imp fun hle ht => ?_
    exact decide_eq_true ((of_decide_eq_true ht).older hle)
  have hdropped := dropWhile_eq_filter hsplit
  simp only [← decide_not] at hdropped
  unfold record
  rw [if_neg hforward, if_neg hforward, ← hdropped]
  rfl

/-- A history takes a report for a step back when the journal does. -/
theorem Keeps.rewinds_iff (hkeeps : Keeps h j) : h.rewinds v.stamp = true ↔
    (j.retained.head?.any fun oldest => v.stamp < oldest.stamp) = true := by
  unfold rewinds oldest?
  rw [hkeeps.samples]
  cases j.retained.head? <;> rfl

theorem Keeps.record (hkeeps : Keeps h j) (hadmits : h.Admits v) :
    Keeps (h.record v) (j.enter v) := by
  obtain ⟨hnumber, hplace⟩ := hadmits
  have hone (n : Nat) : Keeps { h with samples := [v], resets := n } ⟨[v], n⟩ :=
    ⟨(Journal.retained_concat [] v n).symm, rfl, by simpa using hnumber, List.pairwise_singleton _ _⟩
  unfold Journal.enter
  by_cases hback : h.rewinds v.stamp = true
  · rw [record_of_rewinds hback, if_pos (hkeeps.rewinds_iff.1 hback), hkeeps.resets]
    exact hone _
  · rw [if_neg (mt hkeeps.rewinds_iff.2 hback)]
    have hnewest := hplace.resolve_right (mt (h.rewinds_iff v.stamp).2 hback)
    have hle : ∀ newest ∈ j.since.getLast?, newest.stamp ≤ v.stamp := by
      intro newest hmem
      refine hnewest newest.stamp ?_
      rw [newest?, hkeeps.samples, j.getLast?_retained, hmem]
      rfl
    have hascending : h.samples.Pairwise fun s t => s.stamp ≤ t.stamp := by
      rw [hkeeps.samples]
      exact hkeeps.ascending.sublist j.retained_sublist
    rw [record_of_ascending hback hascending]
    refine ⟨?_, hkeeps.resets, ?_, ?_⟩
    · rw [Journal.retained_concat, hkeeps.samples, Journal.filter_retained hle]
    · rw [List.forall_mem_append, List.forall_mem_singleton]
      exact ⟨hkeeps.numbers, hnumber⟩
    · rw [List.pairwise_append]
      refine ⟨hkeeps.ascending, List.pairwise_singleton _ _, fun s hs t ht => ?_⟩
      rw [List.mem_singleton.1 ht]
      exact Journal.le_of_ascending hkeeps.ascending hle s hs

theorem Keeps.foldl (hkeeps : Keeps h j) (hadmits : h.AdmitsAll vs) :
    Keeps (vs.foldl History.record h) (vs.foldl Journal.enter j) := by
  induction vs generalizing h j with
  | nil => exact hkeeps
  | cons v rest ih => exact ih (hkeeps.record hadmits.1) hadmits.2

/-- Of reports that are admitted one after the other, a history has retained what a journal says: of
those since the clock last went back, that one included, the newest and those less than a second older.
They are in order, and the newest is the one that came last. The clock went back as often as the
journal says. Where adding a second moves the newest stamp, being less than a second older is all that
it takes to be retained. -/
theorem record_retains {vs : List (Velocity Float)} (hadmits : AdmitsAll .empty vs) :
    (ofReports vs).samples = (Journal.ofReports vs).retained ∧
    (ofReports vs).resets = (Journal.ofReports vs).rewinds ∧ (ofReports vs).Ordered ∧
    (Journal.ofReports vs).since <:+ vs ∧ (ofReports vs).samples.getLast? = vs.getLast? ∧
    ∀ newest, vs.getLast? = some newest → ¬ newest.Stale newest.stamp →
      (ofReports vs).samples
        = (Journal.ofReports vs).since.filter fun s => ¬ s.Stale newest.stamp := by
  obtain ⟨hsuffix, hlast⟩ := Journal.since_ofReports vs
  have hkeeps : Keeps (ofReports vs) (Journal.ofReports vs) := keeps_empty.foldl hadmits
  obtain ⟨hsamples, hresets, hnumbers, hascending⟩ := hkeeps
  have hsublist := (Journal.ofReports vs).retained_sublist
  refine ⟨hsamples, hresets, ⟨?_, ?_⟩, hsuffix, ?_, fun newest hnewest hfresh => ?_⟩
  · intro s hs
    rw [hsamples] at hs
    exact hnumbers s (hsublist.subset hs)
  · rw [hsamples]
    exact hascending.sublist hsublist
  · rw [hsamples, Journal.getLast?_retained, hlast]
  · rw [hsamples]
    exact Journal.retained_eq_filter (hlast.trans hnewest) hfresh

/-- Reports with equal stamps, one after a gap, and a step back of the clock. -/
def uneven : List (Velocity Float) :=
  [⟨1, 0, 0, 0⟩, ⟨1, 1, 0, 0⟩, ⟨2, 2, 0, 0⟩, ⟨2.5, 3, 0, 0⟩, ⟨0.5, 4, 0, 0⟩, ⟨0.75, 5, 0, 0⟩,
    ⟨0.75, 6, 0, 0⟩, ⟨1.5, 7, 0, 0⟩]

theorem record_retains_uneven : AdmitsAll .empty uneven ∧
    (ofReports uneven).samples = [⟨0.75, 5, 0, 0⟩, ⟨0.75, 6, 0, 0⟩, ⟨1.5, 7, 0, 0⟩] ∧
    (ofReports uneven).resets = 1 := by
  have hadmits : AdmitsAll .empty uneven := by decide +kernel
  obtain ⟨hsamples, hresets, -⟩ := record_retains hadmits
  have hretained : (Journal.ofReports uneven).retained
      = [⟨0.75, 5, 0, 0⟩, ⟨0.75, 6, 0, 0⟩, ⟨1.5, 7, 0, 0⟩] := by decide +kernel
  have hrewinds : (Journal.ofReports uneven).rewinds = 1 := by decide +kernel
  exact ⟨hadmits, hsamples.trans hretained, hresets.trans hrewinds⟩

/-- A report from so far in the future that adding a second to its stamp changes nothing. -/
def distant : Velocity Float := ⟨1e16, 0, 0, 0⟩

/-- The newest report is retained even where it counts as stale itself. -/
theorem record_retains_distant : AdmitsAll .empty [distant] ∧
    (ofReports [distant]).samples = [distant] ∧
    (ofReports [distant]).samples
      ≠ (Journal.ofReports [distant]).since.filter fun s => ¬ s.Stale distant.stamp := by
  decide +kernel

end History

end LidarSync
