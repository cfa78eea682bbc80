import LidarSync.Proofs.Keyed
import LidarSync.Round.Slots

/-!
# What the operations on slots do

`TopicSlots.cloud?` is the view: the cloud in the slot of a topic. Filling and overlaying keep the
topics and are described by what they do to the view; whether slots are full or vacant, which ones
wait and how many are filled is read off the view too. The slots of a collector always list their
topics in ascending order, which is what the equivalences ask for.
-/

namespace LidarSync

namespace TopicSlots

open Keyed (get? keys Ascends)

variable {s : TopicSlots} {t : Topic}

/-- The cloud in the slot of a topic. -/
def cloud? (s : TopicSlots) (t : Topic) : Option Cloud := (Keyed.get? s t).join

theorem cloud?_eq_some_iff {c : Cloud} : s.cloud? t = some c ↔ get? s t = some (some c) := by
  unfold cloud?
  cases get? s t with
  | none => simp
  | some o => cases o <;> simp

theorem cloud?_eq_none_of_not_mem (h : t ∉ keys s) : s.cloud? t = none := by
  unfold cloud?
  rw [Keyed.get?_eq_none_iff.2 h]
  rfl

theorem get?_eq_some_none_iff : get? s t = some none ↔ t ∈ keys s ∧ s.cloud? t = none := by
  rw [Keyed.mem_keys_iff]
  unfold cloud?
  cases get? s t with
  | none => simp
  | some o => cases o <;> simp

/-! ## Empty slots -/

@[simp] theorem keys_empty (topics : List Topic) : keys (empty topics) = ascending topics := by
  unfold empty
  rw [Keyed.keys_ofList, List.map_map]
  exact congrArg ascending (List.map_id topics)

theorem ascends_empty (topics : List Topic) : Ascends (empty topics) :=
  Keyed.ascends_ofList _

@[simp] theorem cloud?_empty (topics : List Topic) (t : Topic) : (empty topics).cloud? t = none := by
  unfold cloud? empty
  rw [Keyed.get?_ofList_map topics fun _ => none]
  split <;> rfl

/-! ## Filling a slot -/

@[simp] theorem keys_fill (t : Topic) (c : Cloud) (s : TopicSlots) :
    keys (s.fill t c) = keys s := by
  unfold fill keys
  rw [List.map_map]
  rfl

theorem get?_fill (t : Topic) (c : Cloud) (s : TopicSlots) (t' : Topic) :
    get? (s.fill t c) t' = (get? s t').map fun old => if t' = t then some c else old :=
  Keyed.get?_map (fun name old => if name = t then some c else old) s t'

/-- Filling a slot changes the cloud of its topic and no other one. -/
theorem cloud?_fill {c : Cloud} (ht : t ∈ keys s) (t' : Topic) :
    (s.fill t c).cloud? t' = if t' = t then some c else s.cloud? t' := by
  unfold cloud?
  rw [get?_fill]
  by_cases h : t' = t
  · subst h
    obtain ⟨o, ho⟩ := Option.isSome_iff_exists.1 (Keyed.mem_keys_iff.1 ht)
    rw [ho, Option.map_some, if_pos rfl, if_pos rfl]
    rfl
  · rw [if_neg h]
    cases get? s t' with
    | none => rfl
    | some o => rw [Option.map_some, if_neg h]

/-! ## Overlaying slots -/

@[simp] theorem keys_overlay (s top : TopicSlots) : keys (s.overlay top) = keys s := by
  unfold overlay keys
  rw [List.map_map]
  rfl

/-- The upper clouds count where there are any. -/
theorem cloud?_overlay {top : TopicSlots} (ht : t ∈ keys s) :
    (s.overlay top).cloud? t = (top.cloud? t).or (s.cloud? t) := by
  have hmap : get? (s.overlay top) t
      = (get? s t).map fun old => ((top.lookup t).getD none).or old :=
    Keyed.get?_map (fun name old => ((top.lookup name).getD none).or old) s t
  unfold cloud?
  rw [hmap]
  obtain ⟨o, ho⟩ := Option.isSome_iff_exists.1 (Keyed.mem_keys_iff.1 ht)
  rw [ho, Option.map_some, Option.join_some]
  change ((get? top t).getD none).or o = (get? top t).join.or o
  cases get? top t <;> rfl

/-! ## Full and vacant slots -/

/-- All slots are filled when every topic has a cloud. -/
theorem full_iff (h : Ascends s) : s.full = true ↔ ∀ t ∈ keys s, (s.cloud? t).isSome := by
  unfold full
  rw [List.all_eq_true]
  constructor
  · intro hall t ht
    obtain ⟨o, ho⟩ := Option.isSome_iff_exists.1 (Keyed.mem_keys_iff.1 ht)
    have hsome : o.isSome = true := hall (t, o) ((Keyed.mem_iff_get? h).2 ho)
    unfold cloud?
    rw [ho]
    exact hsome
  · rintro hall ⟨t, o⟩ hmem
    have hget : get? s t = some o := (Keyed.mem_iff_get? h).1 hmem
    have hsome := hall t (Keyed.mem_keys_iff.2 (by rw [hget]; rfl))
    unfold cloud? at hsome
    rwa [hget] at hsome

theorem vacant_iff (h : Ascends s) : s.vacant = true ↔ ∀ t, s.cloud? t = none := by
  unfold vacant
  rw [List.all_eq_true]
  constructor
  · intro hall t
    by_contra hne
    obtain ⟨c, hc⟩ := Option.ne_none_iff_exists'.1 hne
    have hnone := hall (t, some c) ((Keyed.mem_iff_get? h).2 (cloud?_eq_some_iff.1 hc))
    exact Bool.false_ne_true hnone
  · rintro hall ⟨t, o⟩ hmem
    cases o with
    | none => rfl
    | some c =>
      have hc : s.cloud? t = some c := cloud?_eq_some_iff.2 ((Keyed.mem_iff_get? h).1 hmem)
      rw [hall t] at hc
      exact absurd hc (by simp)

theorem vacant_eq_false (h : (s.cloud? t).isSome) : s.vacant = false := by
  obtain ⟨c, hc⟩ := Option.isSome_iff_exists.1 h
  have hmem : (t, some c) ∈ s := Keyed.mem_of_get? (cloud?_eq_some_iff.1 hc)
  exact List.all_eq_false.2 ⟨(t, some c), hmem, Bool.false_ne_true⟩

theorem exists_of_not_vacant (h : Ascends s) (hne : ¬ s.vacant = true) :
    ∃ t, (s.cloud? t).isSome := by
  by_contra hnone
  apply hne
  rw [vacant_iff h]
  intro t
  rw [← Option.not_isSome_iff_eq_none]
  exact fun hsome => hnone ⟨t, hsome⟩

/-- The topics that wait are those whose slot is there and empty. -/
theorem mem_waiting_iff (h : Ascends s) :
    t ∈ s.waiting ↔ t ∈ keys s ∧ s.cloud? t = none := by
  rw [← get?_eq_some_none_iff]
  refine (Keyed.mem_namesWhere_iff h).trans ?_
  constructor
  · rintro ⟨o, ho, hnone⟩
    rw [Option.isNone_iff_eq_none] at hnone
    exact hnone ▸ ho
  · intro ho
    exact ⟨none, ho, rfl⟩

theorem full_iff_waiting (s : TopicSlots) : s.full = true ↔ s.waiting = [] := by
  unfold full waiting
  rw [List.map_eq_nil_iff, List.filter_eq_nil_iff, List.all_eq_true]
  constructor
  · intro h p hp
    rw [Option.isNone_iff_eq_none, ← Option.not_isSome_iff_eq_none]
    exact not_not_intro (h p hp)
  · intro h p hp
    have hp := h p hp
    rwa [Option.isNone_iff_eq_none, ← Option.not_isSome_iff_eq_none, not_not] at hp

/-! ## How many slots are filled -/

theorem filled_lt (h : s.full = false) : s.filled < (keys s).length := by
  unfold full at h
  unfold filled keys
  rw [List.length_map]
  obtain ⟨p, hp, hnone⟩ := List.all_eq_false.1 h
  exact List.length_filter_lt_length_iff_exists.2 ⟨p, hp, hnone⟩

theorem filled_fill {c : Cloud} (h : Ascends s) (ht : get? s t = some none) :
    (s.fill t c).filled = s.filled + 1 := by
  induction s with
  | nil => exact absurd ht (by simp)
  | cons p rest ih =>
    obtain ⟨n, o⟩ := p
    obtain ⟨hn, hrest⟩ := List.pairwise_cons.1 h
    rw [Keyed.get?_cons] at ht
    by_cases hk : t = n
    · subst hk
      rw [if_pos rfl] at ht
      cases Option.some.inj ht
      have hsame : fill t c rest = rest := by
        refine (List.map_congr_left fun q hq => ?_).trans (List.map_id rest)
        have hne : q.1 ≠ t := fun e => absurd (hn q.1 (List.mem_map_of_mem hq)) (by simp [e])
        simp only [if_neg hne, id]
      have hcons : fill t c ((t, none) :: rest) = (t, some c) :: fill t c rest := by
        simp only [fill, List.map_cons, if_true]
      rw [hcons, hsame]
      rfl
    · rw [if_neg hk] at ht
      have hcons : fill t c ((n, o) :: rest) = (n, o) :: fill t c rest := by
        simp only [fill, List.map_cons, if_neg (Ne.symm hk)]
      have hstep := ih hrest ht
      rw [hcons]
      unfold filled at hstep ⊢
      rw [List.filter_cons, List.filter_cons]
      split
      · rw [List.length_cons, List.length_cons, hstep]
      · exact hstep

end TopicSlots

end LidarSync
