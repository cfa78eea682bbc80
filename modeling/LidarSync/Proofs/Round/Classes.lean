import LidarSync.Proofs.Motion.Chain
import LidarSync.Proofs.Round.Alignment

/-!
# The classes of topics in an aligned round

An aligned round shows each of its topics in one of three ways: as missing, as failed, or with a
cloud and the summary of its correction. `AlignedRound.report` collects what the parts of a round say
of a topic and `AlignedRound.report_eq` reads it off the topic alone, so that no topic is in two
classes. `TopicSlots.alignWith_classes` says which slot puts its topic into which class, and that a
cloud which fails has no influence on the others but for its stamp.
-/

namespace LidarSync

open Keyed (get? keys Ascends)

/-- What the parts of an aligned round say of one topic. -/
structure TopicReport where
  /-- The cloud that is published, if any; nothing where the round does not know the topic. -/
  cloud? : Option (Option Cloud)
  summary? : Option (CorrectionSummary Float)
  missing : Bool
  failed : Bool

/-- What a round says of a topic of which this became. -/
def TopicReport.of : Option Aligned → TopicReport
  | none => ⟨none, none, false, false⟩
  | some .missing => ⟨some none, none, true, false⟩
  | some .failed => ⟨some none, none, false, true⟩
  | some (.moved c s) => ⟨some (some c), some s, false, false⟩

def Aligned.isMissing : Aligned → Bool
  | missing => true
  | _ => false

def Aligned.isFailed : Aligned → Bool
  | failed => true
  | _ => false

namespace AlignedRound

variable {r : AlignedRound} {t : Topic}

def report (r : AlignedRound) (t : Topic) : TopicReport :=
  ⟨get? r.clouds t, get? r.corrections t, decide (t ∈ r.missing), decide (t ∈ r.failed)⟩

/-! ## The parts of a round -/

@[simp] theorem keys_clouds (r : AlignedRound) : keys r.clouds = keys r.topics := by
  unfold clouds keys
  rw [List.map_map]
  rfl

theorem get?_clouds (r : AlignedRound) (t : Topic) :
    get? r.clouds t = (get? r.topics t).map Aligned.cloud? :=
  Keyed.get?_map (fun (_ : Topic) (a : Aligned) => a.cloud?) r.topics t

theorem missing_eq (r : AlignedRound) : r.missing = r.topics.namesWhere Aligned.isMissing := by
  rw [Keyed.namesWhere_eq_filterMap]
  apply List.filterMap_congr
  rintro ⟨t, a⟩ -
  cases a <;> rfl

theorem failed_eq (r : AlignedRound) : r.failed = r.topics.namesWhere Aligned.isFailed := by
  rw [Keyed.namesWhere_eq_filterMap]
  apply List.filterMap_congr
  rintro ⟨t, a⟩ -
  cases a <;> rfl

theorem mem_missing_iff (h : Ascends r.topics) :
    t ∈ r.missing ↔ get? r.topics t = some .missing := by
  rw [missing_eq, Keyed.mem_namesWhere_iff h]
  constructor
  · rintro ⟨a, ha, hmissing⟩
    cases a with
    | missing => exact ha
    | failed => exact absurd hmissing nofun
    | moved _ _ => exact absurd hmissing nofun
  · intro ha
    exact ⟨.missing, ha, rfl⟩

theorem mem_failed_iff (h : Ascends r.topics) :
    t ∈ r.failed ↔ get? r.topics t = some .failed := by
  rw [failed_eq, Keyed.mem_namesWhere_iff h]
  constructor
  · rintro ⟨a, ha, hfailed⟩
    cases a with
    | missing => exact absurd hfailed nofun
    | failed => exact ha
    | moved _ _ => exact absurd hfailed nofun
  · intro ha
    exact ⟨.failed, ha, rfl⟩

/-- The topics without a cloud are those that are missing and those that failed. -/
theorem mem_notSynchronized_iff (h : Ascends r.topics) :
    t ∈ r.notSynchronized ↔ t ∈ r.missing ∨ t ∈ r.failed := by
  rw [mem_missing_iff h, mem_failed_iff h]
  refine (Keyed.mem_namesWhere_iff h (p := fun a => a.cloud?.isNone)).trans ?_
  constructor
  · rintro ⟨a, ha, hnone⟩
    cases a with
    | missing => exact Or.inl ha
    | failed => exact Or.inr ha
    | moved _ _ => exact absurd hnone nofun
  · rintro (ha | ha)
    · exact ⟨_, ha, rfl⟩
    · exact ⟨_, ha, rfl⟩

theorem not_failed_of_missing (h : Ascends r.topics) (ht : t ∈ r.missing) : t ∉ r.failed := by
  rw [mem_missing_iff h] at ht
  rw [mem_failed_iff h, ht]
  nofun

theorem missing_pairwise (h : Ascends r.topics) : r.missing.Pairwise (· < ·) := by
  rw [missing_eq]
  exact Keyed.namesWhere_pairwise h _

theorem failed_pairwise (h : Ascends r.topics) : r.failed.Pairwise (· < ·) := by
  rw [failed_eq]
  exact Keyed.namesWhere_pairwise h _

theorem get?_corrections (h : Ascends r.topics) (t : Topic) :
    get? r.corrections t = (TopicReport.of (get? r.topics t)).summary? := by
  unfold corrections
  rw [Keyed.get?_filterMap _ h]
  · cases get? r.topics t with
    | none => rfl
    | some a => cases a <;> rfl
  · rintro ⟨name, a⟩ q hchosen
    cases a with
    | missing => exact absurd hchosen nofun
    | failed => exact absurd hchosen nofun
    | moved _ _ =>
      cases Option.some.inj hchosen
      rfl

/-- What a round says of a topic depends on what became of that topic alone. -/
theorem report_eq (h : Ascends r.topics) (t : Topic) :
    r.report t = TopicReport.of (get? r.topics t) := by
  have hmissing := mem_missing_iff (t := t) h
  have hfailed := mem_failed_iff (t := t) h
  unfold report
  rw [get?_clouds, get?_corrections h]
  cases ha : get? r.topics t with
  | none =>
    rw [ha] at hmissing hfailed
    simp [hmissing, hfailed, TopicReport.of]
  | some a =>
    rw [ha] at hmissing hfailed
    cases a <;> simp [hmissing, hfailed, TopicReport.of, Aligned.cloud?]

end AlignedRound

/-! ## Aligned slots -/

namespace TopicSlots

variable {ε : Type} {s : TopicSlots} {m : Transformer ε} {frame : String} {h : History Float}
  {r : AlignedRound} {stamps : List Float} {t : Topic} {c : Cloud}

theorem mem_stamps (hc : get? s t = some (some c)) : c.stamp ∈ s.stamps :=
  List.mem_filterMap.2 ⟨(t, some c), Keyed.mem_of_get? hc, rfl⟩

theorem exists_of_mem_stamps (hs : Ascends s) {x : Float} (hx : x ∈ s.stamps) :
    ∃ t c, get? s t = some (some c) ∧ c.stamp = x := by
  obtain ⟨⟨t, slot⟩, hmem, hstamp⟩ := List.mem_filterMap.1 hx
  obtain ⟨c, rfl, rfl⟩ := Option.map_eq_some_iff.1 hstamp
  exact ⟨t, c, (Keyed.mem_iff_get? hs).1 hmem, rfl⟩

/-- The history has an answer for every cloud whose stamp is a number. -/
theorem alignWith_isSome (hnumbers : ∀ x ∈ s.stamps, x.isNaN = false) :
    (s.alignWith m frame h).isSome := by
  unfold alignWith
  dsimp only
  split
  · rfl
  · next reference hlast =>
    have hslot : ∀ t slot, (t, slot) ∈ s →
        (alignSlot m frame h (descendingStamps s.stamps) reference slot).isSome := by
      intro t slot hmem
      cases slot with
      | none => rfl
      | some c =>
        have hstamp : c.stamp ∈ s.stamps := List.mem_filterMap.2 ⟨_, hmem, rfl⟩
        unfold alignSlot alignTopic
        rw [Option.isSome_map]
        exact chainedCorrection_isSome (hnumbers c.stamp hstamp)
    obtain ⟨parts, hparts⟩ := Option.isSome_iff_exists.1 (Keyed.mapM_isSome hslot)
    exact Option.isSome_iff_exists.2 ⟨_, by rw [hparts]; rfl⟩

/-- Under the same stamps the same slot always becomes the same. -/
theorem Becomes.unique {slot : Option Cloud} {a b : Aligned}
    (ha : Becomes m frame h stamps slot a) (hb : Becomes m frame h stamps slot b) : a = b := by
  cases ha with
  | missing =>
    cases hb with
    | missing => rfl
  | failed chains fails =>
    cases hb with
    | failed _ _ => rfl
    | moved chains' _ aligns =>
      rw [chains] at chains'
      cases chains'
      exact absurd fails (Transformer.not_fails_of_align aligns)
  | moved chains last aligns =>
    cases hb with
    | failed chains' fails =>
      rw [chains] at chains'
      cases chains'
      exact absurd fails (Transformer.not_fails_of_align aligns)
    | moved chains' last' aligns' =>
      rw [chains] at chains'
      cases chains'
      rw [last] at last'
      cases last'
      rw [aligns] at aligns'
      cases aligns'
      rfl

/-- The reference is the least of the stamps, also of those whose cloud fails. -/
theorem reference_least (hr : s.alignWith m frame h = some r)
    (hnumbers : ∀ x ∈ s.stamps, x.isNaN = false) :
    (r.reference = none ↔ s.stamps = []) ∧
      ∀ reference, r.reference = some reference →
        reference ∈ s.stamps ∧ ∀ x ∈ s.stamps, reference ≤ x := by
  obtain ⟨hreference, -⟩ := alignWith_related hr
  rw [hreference]
  constructor
  · rw [List.getLast?_eq_none_iff, descendingStamps_eq_nil_iff]
  · intro reference hlast
    constructor
    · exact descendingStamps_subset _ (List.mem_of_getLast? hlast)
    · exact descendingStamps_least hnumbers hlast

/-! ## Other clouds -/

/-- The slots with other clouds in place of those that they hold. -/
def exchange (f : Topic → Cloud → Cloud) (s : TopicSlots) : TopicSlots :=
  s.map fun (t, slot) => (t, slot.map (f t))

variable {f : Topic → Cloud → Cloud}

@[simp] theorem keys_exchange (f : Topic → Cloud → Cloud) (s : TopicSlots) :
    keys (s.exchange f) = keys s := by
  unfold exchange keys
  rw [List.map_map]
  rfl

theorem get?_exchange (f : Topic → Cloud → Cloud) (s : TopicSlots) (t : Topic) :
    get? (s.exchange f) t = (get? s t).map (Option.map (f t)) :=
  Keyed.get?_map (fun (t : Topic) (slot : Option Cloud) => slot.map (f t)) s t

theorem stamps_exchange (hf : ∀ t c, (t, some c) ∈ s → (f t c).stamp = c.stamp) :
    (s.exchange f).stamps = s.stamps := by
  unfold exchange TopicSlots.stamps
  rw [List.filterMap_map]
  apply List.filterMap_congr
  rintro ⟨t, slot⟩ hmem
  cases slot with
  | none => rfl
  | some c => exact congrArg some (hf t c hmem)

/-- What is said of a topic that does not fail stays the same when the clouds of failing topics are
exchanged for others with the same stamps. -/
theorem report_exchange (hs : Ascends s) {r' : AlignedRound}
    (hr : s.alignWith m frame h = some r) (hr' : (s.exchange f).alignWith m frame h = some r')
    (hstamps : (s.exchange f).stamps = s.stamps)
    (hsame : ∀ t c, get? s t = some (some c) → t ∉ r.failed → f t c = c) (ht : t ∉ r.failed) :
    r'.report t = r.report t := by
  obtain ⟨-, hrelated⟩ := alignWith_related hr
  obtain ⟨-, hrelated'⟩ := alignWith_related hr'
  have hs' : Ascends (s.exchange f) := hs.congr (keys_exchange f s)
  have hslot := get?_exchange f s t
  rw [AlignedRound.report_eq (hrelated.ascends hs), AlignedRound.report_eq (hrelated'.ascends hs')]
  cases hget : get? s t with
  | none =>
    have hnone : get? r.topics t = none := by
      rw [Keyed.get?_eq_none_iff, hrelated.keys_eq]
      exact Keyed.get?_eq_none_iff.1 hget
    have hnone' : get? r'.topics t = none := by
      rw [Keyed.get?_eq_none_iff, hrelated'.keys_eq, keys_exchange]
      exact Keyed.get?_eq_none_iff.1 hget
    rw [hnone, hnone']
  | some slot =>
    have hkept : get? (s.exchange f) t = some slot := by
      rw [hslot, hget]
      cases slot with
      | none => rfl
      | some c => rw [Option.map_some, Option.map_some, hsame t c hget ht]
    obtain ⟨a, ha, hbecomes⟩ := hrelated.get? hget
    obtain ⟨a', ha', hbecomes'⟩ := hrelated'.get? hkept
    rw [hstamps] at hbecomes'
    rw [ha, ha', hbecomes.unique hbecomes']

/-! ## The classes -/

theorem report_of_not_mem (hs : Ascends s) (hr : s.alignWith m frame h = some r)
    (ht : t ∉ keys s) : r.report t = ⟨none, none, false, false⟩ := by
  obtain ⟨-, hrelated⟩ := alignWith_related hr
  have htopic : get? r.topics t = none := by
    rw [Keyed.get?_eq_none_iff, hrelated.keys_eq]
    exact ht
  rw [AlignedRound.report_eq (hrelated.ascends hs), htopic]
  rfl

theorem report_of_empty (hs : Ascends s) (hr : s.alignWith m frame h = some r)
    (hslot : get? s t = some none) : r.report t = ⟨some none, none, true, false⟩ := by
  obtain ⟨-, hrelated⟩ := alignWith_related hr
  obtain ⟨a, ha, hbecomes⟩ := hrelated.get? hslot
  rw [AlignedRound.report_eq (hrelated.ascends hs), ha]
  cases hbecomes with
  | missing => rfl

/-- A cloud fails, or it is aligned to the reference. -/
theorem report_of_filled (hs : Ascends s) (hr : s.alignWith m frame h = some r)
    (hslot : get? s t = some (some c)) :
    ∃ chained, chainedCorrection h (descendingStamps s.stamps) c.stamp = some chained ∧
      ((m.Fails frame chained.pose c ∧ r.report t = ⟨some none, none, false, true⟩) ∨
        (¬ m.Fails frame chained.pose c ∧ ∃ reference moved, r.reference = some reference ∧
          m.align frame reference chained.pose c = .ok moved ∧
          r.report t = ⟨some (some moved), some (.ofPose c.stamp chained.pose), false, false⟩)) := by
  obtain ⟨hreference, hrelated⟩ := alignWith_related hr
  obtain ⟨a, ha, hbecomes⟩ := hrelated.get? hslot
  rw [AlignedRound.report_eq (hrelated.ascends hs), ha]
  cases hbecomes with
  | @failed _ chained chains fails => exact ⟨chained, chains, Or.inl ⟨fails, rfl⟩⟩
  | @moved _ moved chained reference chains last aligns =>
    have hsucceeds := Transformer.not_fails_of_align aligns
    exact ⟨chained, chains, Or.inr ⟨hsucceeds, reference, moved, hreference.trans last, aligns, rfl⟩⟩

/-- Alignment of slots whose stamps are numbers always has an answer, over every history and every way
of moving clouds. The answer knows exactly the topics of the slots and puts each into one class: a
topic is missing when its slot is empty, it has failed when its cloud could not be brought into the
frame or moved by its correction, and otherwise it has a cloud, with the reference stamp and in the
frame, and a summary that gives the stamp it had. The reference is the least stamp of all clouds that
there were. For a topic that has not failed, all of this stays the same when the clouds of failed
topics are exchanged for others with the same stamps. -/
theorem alignWith_classes (m : Transformer ε) (frame : String) (h : History Float)
    (hs : Ascends s) (hnumbers : ∀ t c, get? s t = some (some c) → c.stamp.isNaN = false) :
    ∃ r, s.alignWith m frame h = some r ∧
      keys r.clouds = keys s ∧
      r.missing.Pairwise (· < ·) ∧ r.failed.Pairwise (· < ·) ∧
      (∀ t ∉ keys s, r.report t = ⟨none, none, false, false⟩) ∧
      (∀ t ∈ keys s,
        (get? s t = some none ∧ r.report t = ⟨some none, none, true, false⟩) ∨
        ∃ c chained, get? s t = some (some c) ∧
          chainedCorrection h (descendingStamps s.stamps) c.stamp = some chained ∧
          ((m.Fails frame chained.pose c ∧ r.report t = ⟨some none, none, false, true⟩) ∨
            (¬ m.Fails frame chained.pose c ∧ ∃ reference moved,
              r.reference = some reference ∧ reference ≤ c.stamp ∧
              m.align frame reference chained.pose c = .ok moved ∧
              moved.header = ⟨reference, frame⟩ ∧
              r.report t = ⟨some (some moved), some (.ofPose c.stamp chained.pose), false, false⟩))) ∧
      (r.reference = none ↔ ∀ t c, get? s t ≠ some (some c)) ∧
      (∀ reference, r.reference = some reference →
        (∃ t c, get? s t = some (some c) ∧ c.stamp = reference) ∧
        ∀ t c, get? s t = some (some c) → reference ≤ c.stamp) ∧
      ∀ f : Topic → Cloud → Cloud,
        (∀ t c, get? s t = some (some c) → (f t c).stamp = c.stamp) →
        (∀ t c, get? s t = some (some c) → t ∉ r.failed → f t c = c) →
        ∃ r', (s.exchange f).alignWith m frame h = some r' ∧ r'.reference = r.reference ∧
          ∀ t ∉ r.failed, r'.report t = r.report t := by
  have hstamps : ∀ x ∈ s.stamps, x.isNaN = false := by
    intro x hx
    obtain ⟨t, c, hc, rfl⟩ := exists_of_mem_stamps hs hx
    exact hnumbers t c hc
  have hanswer : (s.alignWith m frame h).isSome := alignWith_isSome hstamps
  obtain ⟨r, hr⟩ := Option.isSome_iff_exists.1 hanswer
  obtain ⟨hreference, hrelated⟩ := alignWith_related hr
  have hascends := hrelated.ascends hs
  obtain ⟨hnone, hleast⟩ := reference_least hr hstamps
  refine ⟨r, hr, ?_, r.missing_pairwise hascends, r.failed_pairwise hascends, ?_, ?_, ?_, ?_, ?_⟩
  · rw [AlignedRound.keys_clouds, hrelated.keys_eq]
  · exact fun t ht => report_of_not_mem hs hr ht
  · intro t ht
    obtain ⟨slot, hslot⟩ := Option.isSome_iff_exists.1 (Keyed.mem_keys_iff.1 ht)
    cases slot with
    | none => exact Or.inl ⟨hslot, report_of_empty hs hr hslot⟩
    | some c =>
      obtain ⟨chained, hchains, hclass⟩ := report_of_filled hs hr hslot
      refine Or.inr ⟨c, chained, hslot, hchains, hclass.imp_right ?_⟩
      rintro ⟨hsucceeds, reference, moved, hsome, haligns, hreport⟩
      have hle := (hleast reference hsome).2 c.stamp (mem_stamps hslot)
      have hheader := Transformer.header_align haligns
      exact ⟨hsucceeds, reference, moved, hsome, hle, haligns, hheader, hreport⟩
  · rw [hnone]
    constructor
    · intro hnil t c hc
      have hmem := mem_stamps hc
      rw [hnil] at hmem
      exact absurd hmem List.not_mem_nil
    · intro hempty
      apply List.eq_nil_iff_forall_not_mem.2
      intro x hx
      obtain ⟨t, c, hc, -⟩ := exists_of_mem_stamps hs hx
      exact hempty t c hc
  · intro reference hsome
    obtain ⟨hmem, hle⟩ := hleast reference hsome
    exact ⟨exists_of_mem_stamps hs hmem, fun t c hc => hle c.stamp (mem_stamps hc)⟩
  · intro f hf hsame
    have hexchange : (s.exchange f).stamps = s.stamps :=
      stamps_exchange fun t c hmem => hf t c ((Keyed.mem_iff_get? hs).1 hmem)
    have hanswer' : ((s.exchange f).alignWith m frame h).isSome := by
      apply alignWith_isSome
      rw [hexchange]
      exact hstamps
    obtain ⟨r', hr'⟩ := Option.isSome_iff_exists.1 hanswer'
    refine ⟨r', hr', ?_, fun t ht => report_exchange hs hr hr' hexchange hsame ht⟩
    rw [(alignWith_related hr').1, hreference, hexchange]

/-- Three topics: one that can be aligned, one without a cloud, and one whose frame is not known. -/
def mixed : TopicSlots :=
  [("/left", some (.ofPoints 2 "left" [])), ("/middle", none),
    ("/right", some (.ofPoints 1 "lost" []))]

/-- Moves nothing, and knows every frame but one. -/
def picky : Transformer Unit where
  reproject _ c := if c.frame = "lost" then .error () else .ok c
  move _ c := .ok c

/-- The cloud in the unknown frame fails, and the empty slot is missing. -/
theorem alignWith_classes_mixed :
    (Ascends mixed ∧ ∀ t c, get? mixed t = some (some c) → c.stamp.isNaN = false) ∧
    ∃ r, mixed.alignWith picky "base" .empty = some r ∧
      keys r.clouds = ["/left", "/middle", "/right"] ∧
      r.report "/middle" = ⟨some none, none, true, false⟩ ∧
      r.report "/right" = ⟨some none, none, false, true⟩ := by
  have hs : Ascends mixed := by
    unfold Ascends
    decide
  have hnumbers : ∀ t c, get? mixed t = some (some c) → c.stamp.isNaN = false := by
    intro t c hc
    have hmem := Keyed.mem_of_get? hc
    simp only [mixed, List.mem_cons, Prod.mk.injEq, Option.some.injEq, List.not_mem_nil, or_false,
      reduceCtorEq, and_false, false_or] at hmem
    rcases hmem with ⟨-, rfl⟩ | ⟨-, rfl⟩ <;> rfl
  obtain ⟨r, hr, hkeys, -, -, -, hclasses, -⟩ :=
    alignWith_classes picky "base" .empty hs hnumbers
  refine ⟨⟨hs, hnumbers⟩, r, hr, hkeys, ?_, ?_⟩
  · rcases hclasses "/middle" (by decide) with ⟨-, hreport⟩ | ⟨c, chained, hslot, -⟩
    · exact hreport
    · exact absurd hslot nofun
  · rcases hclasses "/right" (by decide) with ⟨hslot, -⟩ | ⟨c, chained, hslot, -, hclass⟩
    · exact absurd hslot nofun
    · cases hslot
      rcases hclass with ⟨-, hreport⟩ | ⟨hsucceeds, -⟩
      · exact hreport
      · exact absurd (Or.inl ⟨(), rfl⟩) hsucceeds

end TopicSlots

end LidarSync
