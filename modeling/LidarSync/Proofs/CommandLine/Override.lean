import LidarSync.CommandLine.Execution
import LidarSync.Proofs.Blueprint.Rules

/-!
# Overriding settings on the command line

Only the synchronizer settings are checked again after an override. That is enough: of the settings,
the rules for the other sections read the input topics alone, and those stay. And of the rules for
settings, only those for what was overridden can be broken (`RunOptions.override_spec`).
-/

namespace LidarSync

/-! ## A value given instead of another -/

section Given

variable {α : Type} {rules : α → List Rule} {old : α}

/-- Where the old value keeps its rules, a value is all right if it was given and keeps them. -/
theorem forall_kept_getD_iff (h : ∀ r ∈ rules old, r.kept) (given : Option α) :
    (∀ r ∈ rules (given.getD old), r.kept) ↔ ∀ r ∈ given.toList.flatMap rules, r.kept := by
  cases given with
  | none => exact iff_of_true h fun _ hr => absurd hr List.not_mem_nil
  | some x =>
    rw [Option.getD_some, Option.toList_some, List.flatMap_singleton]

theorem firstBroken_getD_iff {v : Violation} (h : ∀ r ∈ rules old, r.kept) (given : Option α) :
    FirstBroken (rules (given.getD old)) v ↔ FirstBroken (given.toList.flatMap rules) v := by
  cases given with
  | none => exact iff_of_false (not_firstBroken_of_kept h) not_firstBroken_nil
  | some x =>
    rw [Option.getD_some, Option.toList_some, List.flatMap_singleton]

theorem exists_broken_given_iff (given : Option α) :
    (∃ r ∈ given.toList.flatMap rules, ¬ r.kept) ↔
      ∃ x, given = some x ∧ ¬ ∀ r ∈ rules x, r.kept := by
  cases given with
  | none => exact iff_of_false (fun ⟨_, h, _⟩ => nomatch h) (fun ⟨_, h, _⟩ => nomatch h)
  | some x =>
    rw [Option.toList_some, List.flatMap_singleton]
    simp only [Option.some.injEq, exists_eq_left', not_forall, exists_prop]

theorem firstBroken_append_kept {rules rules' : List Rule} {v : Violation}
    (h : ∀ r ∈ rules', r.kept) : FirstBroken (rules ++ rules') v ↔ FirstBroken rules v := by
  rw [firstBroken_append_iff]
  exact or_iff_left fun hbroken => not_firstBroken_of_kept h hbroken.2

end Given

namespace CommandLine.RunOptions

/-! ## Overrides -/

/-- All that is asked of what the options override. -/
def rules (o : RunOptions) : List Rule :=
  o.outputFrame.toList.flatMap frameRules ++ o.timeout.toList.flatMap timeoutRules

/-- A blueprint is another one with the settings that the options give. -/
structure Overridden (o : RunOptions) (b b' : Blueprint) : Prop where
  version : b'.version = b.version
  outputFrame : b'.synchronizer.outputFrame = o.outputFrame.getD b.synchronizer.outputFrame
  inputTopics : b'.synchronizer.inputTopics = b.synchronizer.inputTopics
  queueSize : b'.synchronizer.queueSize = b.synchronizer.queueSize
  timeout : b'.synchronizer.timeout = o.timeout.getD b.synchronizer.timeout
  offsets : b'.synchronizer.offsets = b.synchronizer.offsets
  velocityTopic : b'.synchronizer.velocityTopic = b.synchronizer.velocityTopic
  frames : b'.frames = b.frames
  sources : b'.sources = b.sources
  sinks : b'.sinks = b.sinks

theorem overridden_applied (o : RunOptions) (b : Blueprint) : o.Overridden b (o.applied b) where
  version := rfl
  outputFrame := rfl
  inputTopics := rfl
  queueSize := rfl
  timeout := rfl
  offsets := rfl
  velocityTopic := rfl
  frames := rfl
  sources := rfl
  sinks := rfl

/-- The rules for the other sections do not notice an override. -/
theorem validate_applied {o : RunOptions} {b : Blueprint} (h : b.validate = .ok ())
    (hsettings : (o.applied b).synchronizer.validate = .ok ()) :
    (o.applied b).validate = .ok () := by
  obtain ⟨-, hframes, hsources, hsinks⟩ := b.validate_eq_ok_iff.1 h
  have hsettings := (SyncSettings.validate_eq_ok_iff _).1 hsettings
  exact (Blueprint.validate_eq_ok_iff _).2 ⟨hsettings, hframes, hsources, hsinks⟩

theorem override_eq_ok_iff {o : RunOptions} {b b' : Blueprint} :
    o.override b = .ok b' ↔ (o.applied b).synchronizer.validate = .ok () ∧ o.applied b = b' := by
  unfold override
  rw [bind_eq_ok]
  exact ⟨fun ⟨_, hok, heq⟩ => ⟨hok, Except.ok.inj heq⟩, fun ⟨hok, heq⟩ => ⟨(), hok, congrArg _ heq⟩⟩

theorem override_eq_error_iff {o : RunOptions} {b : Blueprint} {v : Violation} :
    o.override b = .error v ↔ (o.applied b).synchronizer.validate = .error v := by
  unfold override
  rw [bind_eq_error]
  exact or_iff_left fun ⟨_, _, h⟩ => nomatch h

theorem rules_applied (o : RunOptions) (b : Blueprint) : (o.applied b).synchronizer.rules =
    frameRules (o.outputFrame.getD b.synchronizer.outputFrame) ++ b.synchronizer.collectionRules
      ++ timeoutRules (o.timeout.getD b.synchronizer.timeout)
      ++ [⟨b.synchronizer.queueSize ≠ 0, .zeroQueueSize⟩] := rfl

/-- Of settings that were all right, an override can only break the rules for what it sets. -/
theorem firstBroken_applied_iff {o : RunOptions} {b : Blueprint} (h : b.synchronizer.validate = .ok ())
    {v : Violation} : FirstBroken (o.applied b).synchronizer.rules v ↔ FirstBroken o.rules v := by
  have hkept := b.synchronizer.validate_enforces.ok_iff.1 h
  unfold SyncSettings.rules at hkept
  simp only [List.forall_mem_append] at hkept
  obtain ⟨⟨⟨hframe, hcollection⟩, htimeout⟩, hqueue⟩ := hkept
  rw [rules_applied, rules, firstBroken_append_kept hqueue, firstBroken_append_iff,
    firstBroken_append_kept hcollection, List.forall_mem_append, and_iff_left hcollection,
    firstBroken_append_iff]
  exact or_congr (firstBroken_getD_iff hframe o.outputFrame)
    (and_congr (forall_kept_getD_iff hframe o.outputFrame) (firstBroken_getD_iff htimeout o.timeout))

theorem forall_kept_timeout_iff (x : Float) :
    (∀ r ∈ timeoutRules x, r.kept) ↔ x.isFinite = true ∧ 0 < x ∧ x ≤ 3600 := by
  unfold timeoutRules
  rw [List.forall_mem_cons, List.forall_mem_singleton, and_assoc]
  refine and_congr_right fun hfinite => and_congr_right fun _ => ?_
  exact Decimal.not_lt_iff_le (by rfl) (Decimal.isNaN_of_isFinite hfinite)

theorem exists_broken_iff (o : RunOptions) :
    (∃ r ∈ o.rules, ¬ r.kept) ↔
      (∃ frame, o.outputFrame = some frame ∧ Text.allBlank frame = true) ∨
        ∃ x, o.timeout = some x ∧ ¬ (x.isFinite = true ∧ 0 < x ∧ x ≤ 3600) := by
  have hframe : ∀ frame, (¬ ∀ r ∈ frameRules frame, r.kept) ↔ Text.allBlank frame = true := by
    intro frame
    rw [frameRules, List.forall_mem_singleton, Bool.not_eq_false]
  simp only [rules, List.mem_append, or_and_right, exists_or, exists_broken_given_iff, hframe,
    forall_kept_timeout_iff]

/-- An override that succeeds keeps a blueprint valid and sets nothing but what was given; it fails
exactly if a given setting breaks a rule, and then with the first such rule. -/
theorem override_spec {b : Blueprint} (h : b.validate = .ok ()) (o : RunOptions) :
    (∀ b', o.override b = .ok b' → b'.validate = .ok () ∧ o.Overridden b b') ∧
    (∀ v, o.override b = .error v ↔ FirstBroken o.rules v) ∧
    ((∃ v, o.override b = .error v) ↔
      (∃ frame, o.outputFrame = some frame ∧ Text.allBlank frame = true) ∨
        ∃ x, o.timeout = some x ∧ ¬ (x.isFinite = true ∧ 0 < x ∧ x ≤ 3600)) := by
  have hsettings : b.synchronizer.validate = .ok () :=
    b.synchronizer.validate_eq_ok_iff.2 (b.validate_eq_ok_iff.1 h).1
  have herror : ∀ v, o.override b = .error v ↔ FirstBroken o.rules v := fun v => by
    rw [override_eq_error_iff, (SyncSettings.validate_enforces _).error_iff,
      firstBroken_applied_iff hsettings]
  refine ⟨fun b' hb' => ?_, herror, ?_⟩
  · obtain ⟨hok, rfl⟩ := override_eq_ok_iff.1 hb'
    exact ⟨validate_applied h hok, o.overridden_applied b⟩
  · rw [exists_congr herror, exists_firstBroken_iff, exists_broken_iff]

/-- A pair of lidars, the left one mounted on the vehicle and fed by a mock source. -/
def mountedPair : Blueprint where
  synchronizer := .pair
  frames := [{ parent := "base_link", child := "left" }]
  sources := { clouds := [{ topic := "/left", frame := "left", frequency := 10 }] }
  sinks := [{ name := "console", kind := .log }]

/-- Another frame and another timeout are set, and nothing else; a negative timeout is refused. -/
theorem override_spec_mountedPair :
    mountedPair.validate = .ok () ∧
    (∃ b', override { outputFrame := some "map", timeout := some 0.25 } mountedPair = .ok b' ∧
      b'.validate = .ok () ∧
      Overridden { outputFrame := some "map", timeout := some 0.25 } mountedPair b') ∧
    override { outputFrame := some "map", timeout := some (-1) } mountedPair
      = .error (.timeoutTooSmall (-1)) := by
  have hvalid : mountedPair.validate = .ok () := by rfl
  have hok : override { outputFrame := some "map", timeout := some 0.25 } mountedPair =
      .ok (applied { outputFrame := some "map", timeout := some 0.25 } mountedPair) :=
    override_eq_ok_iff.2 ⟨by rfl, rfl⟩
  have hbroken : FirstBroken (rules { outputFrame := some "map", timeout := some (-1) })
      (.timeoutTooSmall (-1)) :=
    .later (by decide +kernel) (.here (by decide +kernel))
  exact ⟨hvalid, ⟨_, hok, (override_spec hvalid _).1 _ hok⟩,
    ((override_spec hvalid _).2.1 _).2 hbroken⟩

end CommandLine.RunOptions

end LidarSync
