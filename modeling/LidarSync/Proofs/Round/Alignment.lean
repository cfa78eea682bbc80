import LidarSync.Proofs.Round.Slots
import LidarSync.Proofs.Round.Stamps

/-!
# What alignment makes of slots

`TopicSlots.Becomes` lists all that alignment can make of what is in one slot, and
`TopicSlots.alignWith_related` says that it makes one of these of every slot, in place. Later proofs
go through the cases of `Becomes` and open neither the alignment of a cloud nor that of a round. An
aligned round misses exactly the topics whose slot was empty, and it has a reference stamp exactly
when some slot was filled (`TopicSlots.align_reports`).
-/

namespace LidarSync

open Keyed (get? keys Ascends)

/-- A cloud cannot be brought into the output frame, or not moved by its correction. -/
def Transformer.Fails {ε : Type} (m : Transformer ε) (frame : String) (correction : Pose Float)
    (c : Cloud) : Prop :=
  (∃ fault, m.reproject frame c = .error fault) ∨
    ∃ there fault, m.reproject frame c = .ok there ∧ m.move correction there = .error fault

namespace Transformer

variable {ε : Type} {m : Transformer ε} {frame : String} {correction : Pose Float} {c : Cloud}

/-- A cloud fails, or it is brought into the frame, moved and stamped. -/
theorem align_cases (m : Transformer ε) (frame : String) (reference : Float)
    (correction : Pose Float) (c : Cloud) :
    (m.Fails frame correction c ∧ ∃ fault, m.align frame reference correction c = .error fault) ∨
      (¬ m.Fails frame correction c ∧ ∃ moved, m.align frame reference correction c = .ok moved ∧
        moved.header = ⟨reference, frame⟩) := by
  unfold align Fails
  cases hthere : m.reproject frame c with
  | error fault => exact Or.inl ⟨Or.inl ⟨fault, rfl⟩, fault, rfl⟩
  | ok there =>
    let stamped (moved : Cloud) : Except ε Cloud :=
      .ok { moved with header := ⟨reference, frame⟩ }
    change _ ∧ (∃ fault, (m.move correction there).bind stamped = .error fault) ∨
      _ ∧ ∃ moved, (m.move correction there).bind stamped = .ok moved ∧ moved.header = _
    cases hmoved : m.move correction there with
    | error fault => exact Or.inl ⟨Or.inr ⟨there, fault, rfl, hmoved⟩, fault, rfl⟩
    | ok moved =>
      refine Or.inr ⟨?_, { moved with header := ⟨reference, frame⟩ }, rfl, rfl⟩
      rintro (⟨_, herror⟩ | ⟨there', fault, heq, herror⟩)
      · exact absurd herror nofun
      · cases heq
        rw [hmoved] at herror
        exact absurd herror nofun

theorem fails_iff {reference : Float} :
    m.Fails frame correction c ↔ ∃ fault, m.align frame reference correction c = .error fault := by
  rcases m.align_cases frame reference correction c with ⟨hfails, herror⟩ | ⟨hok, moved, hmoved, -⟩
  · exact iff_of_true hfails herror
  · refine iff_of_false hok ?_
    rintro ⟨fault, herror⟩
    rw [hmoved] at herror
    exact absurd herror nofun

theorem not_fails_of_align {reference : Float} {moved : Cloud}
    (h : m.align frame reference correction c = .ok moved) : ¬ m.Fails frame correction c := by
  intro hfails
  obtain ⟨fault, herror⟩ := fails_iff.1 hfails
  rw [herror] at h
  exact absurd h nofun

theorem header_align {reference : Float} {moved : Cloud}
    (h : m.align frame reference correction c = .ok moved) : moved.header = ⟨reference, frame⟩ := by
  rcases m.align_cases frame reference correction c with ⟨-, fault, herror⟩ | ⟨-, _, hmoved, heq⟩
  · rw [herror] at h
    exact absurd h nofun
  · rw [hmoved] at h
    cases h
    exact heq

end Transformer

namespace TopicSlots

variable {ε : Type} {s : TopicSlots} {m : Transformer ε} {frame : String} {h : History Float}
  {r : AlignedRound} {stamps : List Float}

theorem stamps_eq_nil_iff (s : TopicSlots) : s.stamps = [] ↔ s.vacant = true := by
  unfold TopicSlots.stamps vacant
  rw [List.filterMap_eq_nil_iff, List.all_eq_true]
  refine forall₂_congr fun p _ => ?_
  rw [Option.map_eq_none_iff, Option.isNone_iff_eq_none]

/-- What alignment makes of what is in a slot, under the stamps of its round. -/
inductive Becomes (m : Transformer ε) (frame : String) (h : History Float) (stamps : List Float) :
    Option Cloud → Aligned → Prop where
  | missing : Becomes m frame h stamps none .missing
  | failed {c : Cloud} {chained : Chained Float}
      (chains : chainedCorrection h stamps c.stamp = some chained)
      (fails : m.Fails frame chained.pose c) : Becomes m frame h stamps (some c) .failed
  | moved {c moved : Cloud} {chained : Chained Float} {reference : Float}
      (chains : chainedCorrection h stamps c.stamp = some chained)
      (last : stamps.getLast? = some reference)
      (aligns : m.align frame reference chained.pose c = .ok moved) :
      Becomes m frame h stamps (some c) (.moved moved (.ofPose c.stamp chained.pose))

theorem becomes_of_alignSlot {reference : Float} (hlast : stamps.getLast? = some reference)
    {slot : Option Cloud} {a : Aligned} {n : Nat}
    (ha : alignSlot m frame h stamps reference slot = some (a, n)) :
    Becomes m frame h stamps slot a := by
  cases slot with
  | none =>
    obtain ⟨rfl, -⟩ := Prod.mk.inj (Option.some.inj ha)
    exact .missing
  | some c =>
    unfold alignSlot alignTopic at ha
    obtain ⟨chained, hchains, heq⟩ := Option.map_eq_some_iff.1 ha
    obtain ⟨rfl, -⟩ := Prod.mk.inj heq
    rcases m.align_cases frame reference chained.pose c with
      ⟨hfails, fault, herror⟩ | ⟨-, moved, hmoved, -⟩
    · rw [herror]
      exact .failed hchains hfails
    · rw [hmoved]
      exact .moved hchains hlast hmoved

/-- Every slot becomes what alignment can make of it, and the reference is the last of the descending
stamps. -/
theorem alignWith_related (hr : s.alignWith m frame h = some r) :
    r.reference = (descendingStamps s.stamps).getLast? ∧
      Keyed.Related (Becomes m frame h (descendingStamps s.stamps)) s r.topics := by
  unfold alignWith at hr
  dsimp only at hr
  split at hr
  · next hlast =>
    cases Option.some.inj hr
    refine ⟨hlast.symm, ?_⟩
    rw [List.getLast?_eq_none_iff, descendingStamps_eq_nil_iff, stamps_eq_nil_iff] at hlast
    unfold Keyed.Related
    rw [List.forall₂_map_right_iff, List.forall₂_same]
    intro p hp
    have hnone : p.2.isNone = true := List.all_eq_true.1 hlast p hp
    rw [Option.isNone_iff_eq_none] at hnone
    refine ⟨rfl, ?_⟩
    rw [hnone]
    exact .missing
  · next reference hlast =>
    obtain ⟨parts, hparts, hpure⟩ := Option.bind_eq_some_iff.1 hr
    cases Option.some.inj hpure
    have hrelated := Keyed.Related.ofMapM hparts
    refine ⟨hlast.symm, ?_⟩
    unfold Keyed.Related
    rw [List.forall₂_map_right_iff]
    refine List.Forall₂.imp ?_ hrelated
    rintro p ⟨t, a, n⟩ ⟨hname, ha⟩
    exact ⟨hname, becomes_of_alignSlot hlast ha⟩

/-- The missing topics are those that the slots wait for. -/
theorem missing_of_related {reference : Option Float} {topics : Keyed Aligned} {n : Nat}
    (hrelated : Keyed.Related (Becomes m frame h stamps) s topics) :
    AlignedRound.missing ⟨reference, topics, n⟩ = s.waiting := by
  induction hrelated with
  | nil => rfl
  | @cons p q rest rest' hhead _ ih =>
    obtain ⟨t, slot⟩ := p
    obtain ⟨t', a⟩ := q
    obtain ⟨hname, hbecomes⟩ := hhead
    cases hname
    cases hbecomes with
    | missing => exact congrArg (t :: ·) ih
    | failed _ _ => exact ih
    | moved _ _ _ => exact ih

/-- An aligned round misses the topics whose slot was empty, and it has a reference stamp when some
slot was filled. -/
theorem align_reports (hr : s.alignWith m frame h = some r) :
    r.missing = s.waiting ∧ (r.reference.isSome = true ↔ s.vacant = false) := by
  obtain ⟨hreference, hrelated⟩ := alignWith_related hr
  refine ⟨missing_of_related hrelated, ?_⟩
  rw [hreference, ← Bool.not_eq_true, ← stamps_eq_nil_iff, ← descendingStamps_eq_nil_iff,
    ← List.getLast?_eq_none_iff, Option.isSome_iff_ne_none]

end TopicSlots

end LidarSync
