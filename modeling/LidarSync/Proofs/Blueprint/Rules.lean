import LidarSync.Proofs.Blueprint.Valid
import LidarSync.Proofs.Decimal.Sum

/-!
# The rules for blueprints, in their order

`Blueprint.rules` lists all that is asked of a blueprint: section by section, in each list entry by
entry, and of an entry one rule after the other. A check `Enforces` such a list if it passes where all
rules are kept and answers else with the first one that is broken; checks in a row enforce their lists
in a row, and a loop enforces the rules for its entries. So validation passes exactly the blueprints
that are `Blueprint.Valid`, and of all others it names the first broken rule
(`Blueprint.validate_names_first`).
-/

namespace LidarSync

/-! ## Rules and checks -/

/-- A condition, and what is answered where it does not hold. -/
structure Rule where
  kept : Prop
  violation : Violation

/-- The first rule of a list that is broken has a violation. -/
inductive FirstBroken : List Rule → Violation → Prop where
  | here {rule : Rule} {rest : List Rule} (broken : ¬ rule.kept) :
      FirstBroken (rule :: rest) rule.violation
  | later {rule : Rule} {rest : List Rule} {v : Violation} (kept : rule.kept)
      (first : FirstBroken rest v) : FirstBroken (rule :: rest) v

theorem firstBroken_cons_iff {rule : Rule} {rest : List Rule} {v : Violation} :
    FirstBroken (rule :: rest) v ↔
      ¬ rule.kept ∧ rule.violation = v ∨ rule.kept ∧ FirstBroken rest v := by
  constructor
  · intro h
    cases h with
    | here broken => exact Or.inl ⟨broken, rfl⟩
    | later kept first => exact Or.inr ⟨kept, first⟩
  · rintro (⟨broken, rfl⟩ | ⟨kept, first⟩)
    · exact .here broken
    · exact .later kept first

theorem not_firstBroken_nil {v : Violation} : ¬ FirstBroken [] v := nofun

theorem firstBroken_append_iff {rules rules' : List Rule} {v : Violation} :
    FirstBroken (rules ++ rules') v ↔
      FirstBroken rules v ∨ (∀ r ∈ rules, r.kept) ∧ FirstBroken rules' v := by
  induction rules with
  | nil => simp [not_firstBroken_nil]
  | cons rule rest ih =>
    rw [List.cons_append, firstBroken_cons_iff, firstBroken_cons_iff, ih, List.forall_mem_cons]
    tauto

theorem exists_firstBroken_iff {rules : List Rule} :
    (∃ v, FirstBroken rules v) ↔ ∃ r ∈ rules, ¬ r.kept := by
  induction rules with
  | nil => exact iff_of_false (fun ⟨_, h⟩ => not_firstBroken_nil h) (fun ⟨_, h, _⟩ => nomatch h)
  | cons rule rest ih =>
    simp only [firstBroken_cons_iff, exists_or, exists_and_left, exists_eq', and_true, ih,
      List.exists_mem_cons_iff]
    tauto

theorem not_firstBroken_of_kept {rules : List Rule} {v : Violation} (h : ∀ r ∈ rules, r.kept) :
    ¬ FirstBroken rules v := fun hbroken => by
  obtain ⟨r, hr, hr'⟩ := exists_firstBroken_iff.1 ⟨v, hbroken⟩
  exact hr' (h r hr)

/-- A check passes where all rules are kept, and else answers with the first one that is broken. -/
structure Enforces (check : Except Violation Unit) (rules : List Rule) : Prop where
  ok_iff : check = .ok () ↔ ∀ r ∈ rules, r.kept
  error_iff : ∀ v, check = .error v ↔ FirstBroken rules v

namespace Enforces

theorem pass : Enforces (.ok ()) [] where
  ok_iff := iff_of_true rfl nofun
  error_iff _ := iff_of_false nofun not_firstBroken_nil

theorem demandThat {rule : Bool} {kept : Prop} (h : rule = true ↔ kept) (v : Violation) :
    Enforces (demandThat rule v) [⟨kept, v⟩] where
  ok_iff := by
    rw [demandThat_eq_ok_iff, List.forall_mem_singleton]
    exact h
  error_iff v' := by
    rw [firstBroken_cons_iff, ← h]
    unfold LidarSync.demandThat
    cases rule with
    | true => simp [not_firstBroken_nil]
    | false => simp [not_firstBroken_nil]

theorem bind {check next : Except Violation Unit} {rules rules' : List Rule}
    (h : Enforces check rules) (h' : Enforces next rules') :
    Enforces (do check; next) (rules ++ rules') where
  ok_iff := by
    rw [bind_eq_ok_iff, h.ok_iff, h'.ok_iff, List.forall_mem_append]
  error_iff v := by
    rw [bind_eq_error, h.error_iff, firstBroken_append_iff, ← h.ok_iff, ← h'.error_iff]
    exact or_congr_right ⟨fun ⟨_, hpass, herror⟩ => ⟨hpass, herror⟩, fun hnext => ⟨(), hnext⟩⟩

theorem cons {rule : Bool} {kept : Prop} {v : Violation} {next : Except Violation Unit}
    {rules : List Rule} (h : rule = true ↔ kept) (hnext : Enforces next rules) :
    Enforces (do LidarSync.demandThat rule v; next) (⟨kept, v⟩ :: rules) :=
  (demandThat h v).bind hnext

/-- A pass over a list enforces the rules for each element. -/
theorem forM {α : Type} {one : α → Except Violation Unit} {rules : α → List Rule}
    (h : ∀ x, Enforces (one x) (rules x)) (xs : List α) :
    Enforces (xs.forM one) (xs.flatMap rules) := by
  induction xs with
  | nil => exact pass
  | cons x rest ih =>
    rw [List.flatMap_cons]
    exact (h x).bind ih

end Enforces

/-- The rules for the entries of a list. Those for an entry depend on the entries before it. -/
def entryRules {α : Type} (rules : List α → α → List Rule) : List α → List α → List Rule
  | _, [] => []
  | before, x :: rest => rules before x ++ entryRules rules (before ++ [x]) rest

/-- A loop enforces the rules for the entries that it goes through, if its state tells all that the
check of an entry needs to know of the entries before. -/
theorem Enforces.loop {σ α : Type} (check : σ → List α → Except Violation Unit) (next : σ → α → σ)
    {rules : List α → α → List Rule} (Knows : σ → List α → Prop)
    (hnil : ∀ s, check s [] = .ok ())
    (hcons : ∀ s x rest, check s (x :: rest) = (do check s [x]; check (next s x) rest))
    (hnext : ∀ s before x, Knows s before → Knows (next s x) (before ++ [x]))
    (hone : ∀ s before x, Knows s before → Enforces (check s [x]) (rules before x))
    {s : σ} {before : List α} (hs : Knows s before) (xs : List α) :
    Enforces (check s xs) (entryRules rules before xs) := by
  induction xs generalizing s before with
  | nil =>
    rw [hnil]
    exact .pass
  | cons x rest ih =>
    rw [hcons, entryRules]
    exact (hone s before x hs).bind (ih (hnext s before x hs))

/-! ## Synchronizer settings -/

def frameRules (frame : String) : List Rule :=
  [⟨Text.allBlank frame = false, .blankOutputFrame⟩]

def topicRules (before : List Topic) (t : Topic) : List Rule :=
  [⟨Text.allBlank t = false, .blankTopic⟩, ⟨t ∉ before, .duplicateTopic t⟩]

def offsetRules (before : List Float) (x : Float) : List Rule :=
  [⟨x.isFinite = true ∧ 0 ≤ x, .badOffset before.length x⟩]

def timeoutRules (x : Float) : List Rule :=
  [⟨x.isFinite = true ∧ 0 < x, .timeoutTooSmall x⟩,
    ⟨¬ SyncSettings.maxTimeout < x, .timeoutTooLarge x⟩]

/-- The rules for the settings that come between the output frame and the timeout. -/
def SyncSettings.collectionRules (s : SyncSettings) : List Rule :=
  [⟨s.inputTopics.length ≠ 0, .noTopics⟩, ⟨s.inputTopics.length ≠ 1, .oneTopic⟩]
    ++ entryRules topicRules [] s.inputTopics
    ++ [⟨s.offsets = [] ∨ s.offsets.length = s.inputTopics.length,
      .offsetCount s.inputTopics.length s.offsets.length⟩]
    ++ entryRules offsetRules [] s.offsets

def SyncSettings.rules (s : SyncSettings) : List Rule :=
  frameRules s.outputFrame ++ s.collectionRules ++ timeoutRules s.timeout
    ++ [⟨s.queueSize ≠ 0, .zeroQueueSize⟩]

theorem checkTopics_enforces (topics : List Topic) :
    Enforces (checkTopics [] topics) (entryRules topicRules [] topics) := by
  refine .loop checkTopics (fun seen t => t :: seen) (fun seen before => ∀ t, t ∈ seen ↔ t ∈ before)
    (fun _ => rfl) ?_ ?_ ?_ (fun _ => Iff.rfl) topics
  · intro seen t rest
    simp only [checkTopics, bind_assoc]
    rfl
  · intro seen before t hseen t'
    rw [List.mem_cons, hseen, List.mem_append, List.mem_singleton, or_comm]
  · intro seen before t hseen
    refine .cons (Bool.not_eq_true' _).to_iff (.cons ?_ .pass)
    rw [decide_eq_true_eq, hseen]

/-- A finite number is not negative if it is at least nought. -/
theorem finite_nonneg_iff (x : Float) :
    (x.isFinite && !(decide (x < 0))) = true ↔ x.isFinite = true ∧ 0 ≤ x := by
  rw [Bool.and_eq_true, Bool.not_eq_true', decide_eq_false_iff_not]
  exact and_congr_right fun hx => Decimal.not_lt_iff_le (Decimal.isNaN_of_isFinite hx) (by rfl)

theorem finite_pos_iff (x : Float) :
    (x.isFinite && !(decide (x ≤ 0))) = true ↔ x.isFinite = true ∧ 0 < x := by
  rw [Bool.and_eq_true, Bool.not_eq_true', decide_eq_false_iff_not]
  exact and_congr_right fun hx => Decimal.not_le_iff_lt (Decimal.isNaN_of_isFinite hx) (by rfl)

theorem checkOffsets_enforces (offsets : List Float) :
    Enforces (checkOffsets 0 offsets) (entryRules offsetRules [] offsets) := by
  have hstart : 0 = ([] : List Float).length := rfl
  refine .loop checkOffsets (fun index _ => index + 1) (fun index before => index = before.length)
    (fun _ => rfl) ?_ ?_ ?_ hstart offsets
  · intro index x rest
    simp only [checkOffsets, bind_assoc]
    rfl
  · intro index before x hindex
    rw [hindex, List.length_append, List.length_singleton]
  · rintro _ before x rfl
    exact .cons (finite_nonneg_iff x) .pass

theorem SyncSettings.validate_enforces (s : SyncSettings) : Enforces s.validate s.rules := by
  have hcount : (s.offsets.isEmpty || s.offsets.length == s.inputTopics.length) = true ↔
      s.offsets = [] ∨ s.offsets.length = s.inputTopics.length := by
    rw [Bool.or_eq_true, List.isEmpty_iff, beq_iff_eq]
  have hmax : (!decide (maxTimeout < s.timeout)) = true ↔ ¬ maxTimeout < s.timeout := by
    rw [Bool.not_eq_true', decide_eq_false_iff_not]
  unfold validate rules collectionRules frameRules timeoutRules
  simp only [List.cons_append, List.nil_append, List.append_assoc]
  refine .cons (Bool.not_eq_true' _).to_iff (.cons decide_eq_true_iff (.cons decide_eq_true_iff ?_))
  refine .bind (checkTopics_enforces s.inputTopics) (.cons hcount ?_)
  refine .bind (checkOffsets_enforces s.offsets) (.cons (finite_pos_iff s.timeout) ?_)
  exact .cons hmax (.demandThat decide_eq_true_iff _)

/-! ## Static transforms, sources and sinks -/

/-- The frames that a static transform connects. -/
def StaticTransform.ends (t : StaticTransform) : String × String := (t.parent, t.child)

def StaticTransform.rules (before : List StaticTransform) (t : StaticTransform) : List Rule :=
  [⟨t.parent ≠ "" ∧ t.child ≠ "", .emptyFrame before.length⟩,
    ⟨t.parent ≠ t.child, .selfParent before.length t.child⟩,
    ⟨t.ends ∉ before.map (·.ends), .duplicateTransform before.length t.parent t.child⟩]

def CloudSource.rules (topics : List Topic) (s : CloudSource) : List Rule :=
  [⟨s.topic ∈ topics, .unlistedSource s.topic⟩,
    ⟨0 < s.frequency, .sourceFrequency s.topic s.frequency⟩, ⟨s.frame ≠ "", .sourceFrame s.topic⟩]

def VelocitySource.rules (v : VelocitySource) : List Rule :=
  [⟨0 < v.frequency, .velocityFrequency v.frequency⟩]

def Sources.rules (topics : List Topic) (s : Sources) : List Rule :=
  s.clouds.flatMap (CloudSource.rules topics) ++ s.velocity.toList.flatMap VelocitySource.rules

def SinkPlan.rules (before : List SinkPlan) (p : SinkPlan) : List Rule :=
  [⟨p.name ≠ "", .emptySinkName before.length⟩, ⟨p.name ∉ before.map (·.name), .duplicateSink p.name⟩,
    ⟨p.capacity ≠ 0, .zeroSinkCapacity p.name⟩]

/-- All that is asked of a blueprint, in the order in which it is looked at. -/
def Blueprint.rules (b : Blueprint) : List Rule :=
  b.synchronizer.rules ++ entryRules StaticTransform.rules [] b.frames
    ++ b.sources.rules b.synchronizer.inputTopics ++ entryRules SinkPlan.rules [] b.sinks

theorem not_isEmpty_iff (s : String) : (!s.isEmpty) = true ↔ s ≠ "" := by
  rw [Bool.not_eq_true', ← Bool.not_eq_true, String.isEmpty_iff]

/-- Where an entry of a list stands, and what the entries before it are marked with. -/
def Passed {α κ : Type} (mark : α → κ) (s : List κ × Nat) (before : List α) : Prop :=
  (∀ k, k ∈ s.1 ↔ k ∈ before.map mark) ∧ s.2 = before.length

theorem Passed.start {α κ : Type} (mark : α → κ) : Passed mark ([], 0) [] :=
  ⟨fun _ => Iff.rfl, rfl⟩

theorem Passed.next {α κ : Type} {mark : α → κ} {s : List κ × Nat} {before : List α}
    (h : Passed mark s before) (x : α) : Passed mark (mark x :: s.1, s.2 + 1) (before ++ [x]) := by
  constructor
  · intro k
    rw [List.mem_cons, h.1, List.map_append, List.mem_append, List.map_singleton,
      List.mem_singleton, or_comm]
  · rw [h.2, List.length_append, List.length_singleton]

theorem checkFrames_enforces (frames : List StaticTransform) :
    Enforces (checkFrames [] 0 frames) (entryRules StaticTransform.rules [] frames) := by
  refine .loop (fun s => checkFrames s.1 s.2) (fun s t => (t.ends :: s.1, s.2 + 1))
    (Passed StaticTransform.ends) (fun _ => rfl) ?_ (fun _ _ x hs => hs.next x) ?_ (.start _) frames
  · intro s t rest
    simp only [checkFrames, bind_assoc]
    rfl
  · rintro ⟨seen, _⟩ before t ⟨hseen, rfl⟩
    refine .cons ?_ (.cons decide_eq_true_iff (.cons ?_ .pass))
    · rw [Bool.and_eq_true, not_isEmpty_iff, not_isEmpty_iff]
    · rw [decide_eq_true_eq, ← hseen]
      rfl

theorem CloudSource.validate_enforces (topics : List Topic) (s : CloudSource) :
    Enforces (s.validate topics) (s.rules topics) :=
  .cons decide_eq_true_iff (.cons decide_eq_true_iff (.demandThat (not_isEmpty_iff s.frame) _))

theorem Sources.validate_enforces (topics : List Topic) (s : Sources) :
    Enforces (s.validate topics) (s.rules topics) := by
  refine .bind (.forM (CloudSource.validate_enforces topics) s.clouds) ?_
  cases s.velocity with
  | none => exact .pass
  | some v => exact .demandThat decide_eq_true_iff _

theorem checkSinks_enforces (plans : List SinkPlan) :
    Enforces (checkSinks [] 0 plans) (entryRules SinkPlan.rules [] plans) := by
  refine .loop (fun s => checkSinks s.1 s.2) (fun s p => (p.name :: s.1, s.2 + 1))
    (Passed SinkPlan.name) (fun _ => rfl) ?_ (fun _ _ x hs => hs.next x) ?_ (.start _) plans
  · intro s p rest
    simp only [checkSinks, bind_assoc]
    rfl
  · rintro ⟨seen, _⟩ before p ⟨hseen, rfl⟩
    refine .cons (not_isEmpty_iff p.name) (.cons ?_ (.cons decide_eq_true_iff .pass))
    rw [decide_eq_true_eq, hseen]

theorem Blueprint.validate_enforces (b : Blueprint) : Enforces b.validate b.rules := by
  unfold rules
  rw [List.append_assoc, List.append_assoc]
  exact .bind b.synchronizer.validate_enforces (.bind (checkFrames_enforces b.frames)
    (.bind (Sources.validate_enforces b.synchronizer.inputTopics b.sources)
      (checkSinks_enforces b.sinks)))

/-! ## Valid blueprints -/

/-- The rules for the static transforms. -/
structure FramesValid (frames : List StaticTransform) : Prop where
  named : ∀ t ∈ frames, t.parent ≠ "" ∧ t.child ≠ ""
  apart : ∀ t ∈ frames, t.parent ≠ t.child
  ends_nodup : (frames.map (·.ends)).Nodup

theorem StaticTransform.forall_kept_iff {before : List StaticTransform} {t : StaticTransform} :
    (∀ r ∈ t.rules before, r.kept) ↔
      (t.parent ≠ "" ∧ t.child ≠ "") ∧ t.parent ≠ t.child ∧ t.ends ∉ before.map (·.ends) := by
  unfold rules
  rw [List.forall_mem_cons, List.forall_mem_cons, List.forall_mem_singleton]

theorem forall_kept_frames_iff {before frames : List StaticTransform} :
    (∀ r ∈ entryRules StaticTransform.rules before frames, r.kept) ↔
      FramesValid frames ∧ ∀ t ∈ frames, t.ends ∉ before.map (·.ends) := by
  induction frames generalizing before with
  | nil => exact iff_of_true nofun ⟨⟨nofun, nofun, List.Pairwise.nil⟩, nofun⟩
  | cons t rest ih =>
    have hpassed : ∀ t' : StaticTransform, t'.ends ∉ (before ++ [t]).map (·.ends) ↔
        t'.ends ∉ before.map (·.ends) ∧ t'.ends ≠ t.ends := fun t' => by
      rw [List.map_append, List.mem_append, List.map_singleton, List.mem_singleton, not_or]
    rw [entryRules, List.forall_mem_append, StaticTransform.forall_kept_iff, ih]
    simp only [hpassed, List.forall_mem_cons]
    constructor
    · rintro ⟨⟨hnamed, hapart, hfresh⟩, hvalid, hrest⟩
      have hnew : t.ends ∉ rest.map (·.ends) := by
        intro hmem
        obtain ⟨t', ht', heq⟩ := List.mem_map.1 hmem
        exact (hrest t' ht').2 heq
      refine ⟨⟨List.forall_mem_cons.2 ⟨hnamed, hvalid.named⟩,
        List.forall_mem_cons.2 ⟨hapart, hvalid.apart⟩,
        List.nodup_cons.2 ⟨hnew, hvalid.ends_nodup⟩⟩, hfresh, fun t' ht' => (hrest t' ht').1⟩
    · rintro ⟨⟨hnamed, hapart, hnodup⟩, hfresh, hrest⟩
      obtain ⟨hnamed, hnamed'⟩ := List.forall_mem_cons.1 hnamed
      obtain ⟨hapart, hapart'⟩ := List.forall_mem_cons.1 hapart
      obtain ⟨hnew, hnodup⟩ := List.nodup_cons.1 hnodup
      refine ⟨⟨hnamed, hapart, hfresh⟩, ⟨hnamed', hapart', hnodup⟩, fun t' ht' => ?_⟩
      exact ⟨hrest t' ht', fun heq => hnew (List.mem_map.2 ⟨t', ht', heq⟩)⟩

theorem checkFrames_eq_ok_iff {frames : List StaticTransform} :
    checkFrames [] 0 frames = .ok () ↔ FramesValid frames := by
  rw [(checkFrames_enforces frames).ok_iff, forall_kept_frames_iff]
  exact and_iff_left fun _ _ => List.not_mem_nil

/-- What is asked of a blueprint. -/
structure Blueprint.Valid (b : Blueprint) : Prop where
  frame : Text.allBlank b.synchronizer.outputFrame = false
  topics_length : 2 ≤ b.synchronizer.inputTopics.length
  topics_named : ∀ t ∈ b.synchronizer.inputTopics, Text.allBlank t = false
  topics_nodup : b.synchronizer.inputTopics.Nodup
  offsets_length : b.synchronizer.offsets = [] ∨
    b.synchronizer.offsets.length = b.synchronizer.inputTopics.length
  offsets : ∀ x ∈ b.synchronizer.offsets, x.isFinite = true ∧ 0 ≤ x
  timeout_finite : b.synchronizer.timeout.isFinite = true
  timeout_pos : 0 < b.synchronizer.timeout
  timeout_le : b.synchronizer.timeout ≤ 3600
  queue : 0 < b.synchronizer.queueSize
  frames_named : ∀ t ∈ b.frames, t.parent ≠ "" ∧ t.child ≠ ""
  frames_apart : ∀ t ∈ b.frames, t.parent ≠ t.child
  frames_nodup : (b.frames.map fun t => (t.parent, t.child)).Nodup
  sources : ∀ s ∈ b.sources.clouds,
    s.topic ∈ b.synchronizer.inputTopics ∧ 0 < s.frequency ∧ s.frame ≠ ""
  velocity : ∀ v, b.sources.velocity = some v → 0 < v.frequency
  sinks_named : ∀ p ∈ b.sinks, p.name ≠ ""
  sinks_nodup : (b.sinks.map (·.name)).Nodup
  sinks_capacity : ∀ p ∈ b.sinks, 0 < p.capacity

theorem isEmpty_eq_false_iff (s : String) : s.isEmpty = false ↔ s ≠ "" := by
  rw [← Bool.not_eq_true', not_isEmpty_iff]

theorem Blueprint.validate_eq_ok_iff_valid (b : Blueprint) : b.validate = .ok () ↔ b.Valid := by
  rw [b.validate_eq_ok_iff, checkFrames_eq_ok_iff]
  constructor
  · rintro ⟨hsettings, hframes, hsources, hsinks⟩
    have htimeout := Decimal.isNaN_of_isFinite hsettings.timeout_finite
    exact {
      frame := hsettings.frame
      topics_length := hsettings.topics_length
      topics_named := hsettings.topics_named
      topics_nodup := hsettings.topics_nodup
      offsets_length := hsettings.offsets_length
      offsets := fun x hx => (finite_nonneg_iff x).1 (by
        rw [hsettings.offset_finite x hx, decide_eq_false (hsettings.offset_nonneg x hx)]
        rfl)
      timeout_finite := hsettings.timeout_finite
      timeout_pos := (Decimal.not_le_iff_lt htimeout (by rfl)).1 hsettings.timeout_pos
      timeout_le := (Decimal.not_lt_iff_le (by rfl) htimeout).1 hsettings.timeout_le
      queue := Nat.pos_of_ne_zero hsettings.queue
      frames_named := hframes.named
      frames_apart := hframes.apart
      frames_nodup := hframes.ends_nodup
      sources := fun s hs => ⟨(hsources.clouds s hs).listed, (hsources.clouds s hs).frequency_pos,
        (isEmpty_eq_false_iff s.frame).1 (hsources.clouds s hs).frame⟩
      velocity := hsources.velocity
      sinks_named := fun p hp => (isEmpty_eq_false_iff p.name).1 (hsinks.named p hp)
      sinks_nodup := hsinks.names_nodup
      sinks_capacity := fun p hp => Nat.pos_of_ne_zero (hsinks.capacity p hp) }
  · intro h
    have htimeout := Decimal.isNaN_of_isFinite h.timeout_finite
    refine ⟨?_, ⟨h.frames_named, h.frames_apart, h.frames_nodup⟩, ⟨fun s hs => ?_, h.velocity⟩, ?_⟩
    · exact {
        frame := h.frame
        topics_length := h.topics_length
        topics_named := h.topics_named
        topics_nodup := h.topics_nodup
        offsets_length := h.offsets_length
        offset_finite := fun x hx => (h.offsets x hx).1
        offset_nonneg := fun x hx => (Decimal.not_lt_iff_le
          (Decimal.isNaN_of_isFinite (h.offsets x hx).1) (by rfl)).2 (h.offsets x hx).2
        timeout_finite := h.timeout_finite
        timeout_pos := (Decimal.not_le_iff_lt htimeout (by rfl)).2 h.timeout_pos
        timeout_le := (Decimal.not_lt_iff_le (by rfl) htimeout).2 h.timeout_le
        queue := h.queue.ne' }
    · obtain ⟨hlisted, hfrequency, hframe⟩ := h.sources s hs
      exact ⟨hlisted, hfrequency, (isEmpty_eq_false_iff s.frame).2 hframe⟩
    · exact ⟨fun p hp => (isEmpty_eq_false_iff p.name).2 (h.sinks_named p hp),
        fun p hp => (h.sinks_capacity p hp).ne', h.sinks_nodup⟩

/-- Validation passes exactly the valid blueprints, and of every other one it names the first rule
that is broken: of the first section, there of the first entry, and of that the first one. -/
theorem Blueprint.validate_names_first (b : Blueprint) :
    (b.validate = .ok () ↔ b.Valid) ∧ ∀ v, b.validate = .error v ↔ FirstBroken b.rules v :=
  ⟨b.validate_eq_ok_iff_valid, b.validate_enforces.error_iff⟩

end LidarSync
