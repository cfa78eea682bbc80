import LidarSync.Blueprint.Basic
import LidarSync.Decimal.Layout
import LidarSync.Text.Blank

/-!
# Which blueprints are valid

`Blueprint.validate` goes through a blueprint section by section, and in each list entry by entry,
and answers with the first rule that is broken. `Violation.field` and `Violation.message` say where
and which.
-/

namespace LidarSync

open Decimal

/-- A broken rule. -/
inductive Violation where
  | blankOutputFrame
  | noTopics
  | oneTopic
  | blankTopic
  | duplicateTopic (topic : Topic)
  | offsetCount (topics offsets : Nat)
  | badOffset (index : Nat) (offset : Float)
  | timeoutTooSmall (timeout : Float)
  | timeoutTooLarge (timeout : Float)
  | zeroQueueSize
  | emptyFrame (index : Nat)
  | selfParent (index : Nat) (frame : String)
  | duplicateTransform (index : Nat) (parent child : String)
  | unlistedSource (topic : Topic)
  | sourceFrequency (topic : Topic) (frequency : Float)
  | sourceFrame (topic : Topic)
  | velocityFrequency (frequency : Float)
  | emptySinkName (index : Nat)
  | duplicateSink (name : String)
  | zeroSinkCapacity (name : String)

namespace Violation

def field : Violation → String
  | blankOutputFrame => "synchronizer.output_frame"
  | noTopics => "synchronizer.input_topics"
  | oneTopic => "synchronizer.input_topics"
  | blankTopic => "synchronizer.input_topics"
  | duplicateTopic topic => s!"synchronizer.input_topics[{topic}]"
  | offsetCount _ _ => "synchronizer.input_offset"
  | badOffset index _ => s!"synchronizer.input_offset[{index}]"
  | timeoutTooSmall _ => "synchronizer.timeout_sec"
  | timeoutTooLarge _ => "synchronizer.timeout_sec"
  | zeroQueueSize => "synchronizer.max_queue_size"
  | emptyFrame index => s!"frames[{index}]"
  | selfParent index _ => s!"frames[{index}]"
  | duplicateTransform index _ _ => s!"frames[{index}]"
  | unlistedSource topic => s!"sources.clouds[topic={topic}]"
  | sourceFrequency topic _ => s!"sources.clouds[topic={topic}].frequency_hz"
  | sourceFrame topic => s!"sources.clouds[topic={topic}].frame_id"
  | velocityFrequency _ => "sources.velocity.frequency_hz"
  | emptySinkName index => s!"sinks[{index}].name"
  | duplicateSink name => s!"sinks[name={name}]"
  | zeroSinkCapacity name => s!"sinks[name={name}].queue_capacity"

def demand : Violation → String
  | blankOutputFrame => "output_frame must be set to a non-empty frame id"
  | noTopics => "input_topics must not be empty"
  | oneTopic => "only one topic given, at least two topics are required"
  | blankTopic => "topic name cannot be empty"
  | duplicateTopic _ => "duplicate input topic"
  | offsetCount topics offsets =>
    s!"the number of topics ({topics}) does not match the number of offsets ({offsets})"
  | badOffset _ offset => s!"offset must be finite and >= 0, got {Layout.plain.double offset}"
  | timeoutTooSmall timeout => s!"timeout_sec must be > 0, got {Layout.plain.double timeout}"
  | timeoutTooLarge timeout => s!"timeout_sec must be <= 3600, got {Layout.plain.double timeout}"
  | zeroQueueSize => "max_queue_size must be > 0"
  | emptyFrame _ => "parent_frame and child_frame cannot be empty"
  | selfParent _ frame => s!"frame '{frame}' cannot be its own parent"
  | duplicateTransform _ parent child => s!"duplicate transform {parent} -> {child}"
  | unlistedSource _ => "source topic is not listed in synchronizer.input_topics"
  | sourceFrequency _ frequency =>
    s!"frequency_hz must be > 0, got {Layout.plain.double frequency}"
  | sourceFrame _ => "frame_id cannot be empty"
  | velocityFrequency frequency =>
    s!"frequency_hz must be > 0, got {Layout.plain.double frequency}"
  | emptySinkName _ => "sink name cannot be empty"
  | duplicateSink _ => "duplicate sink name"
  | zeroSinkCapacity _ => "queue_capacity must be > 0"

def message (v : Violation) : String :=
  s!"config validation error at '{v.field}': {v.demand}"

end Violation

def SyncSettings.maxTimeout : Float := 3600

def demandThat (rule : Bool) (v : Violation) : Except Violation Unit :=
  if rule then .ok () else .error v

/-- Checks the topics one by one; the first argument holds those seen before. -/
def checkTopics : List Topic → List Topic → Except Violation Unit
  | _, [] => .ok ()
  | before, t :: rest => do
    demandThat (!Text.allBlank t) .blankTopic
    demandThat (t ∉ before) (.duplicateTopic t)
    checkTopics (t :: before) rest

/-- Checks the offsets one by one from an index on. -/
def checkOffsets : Nat → List Float → Except Violation Unit
  | _, [] => .ok ()
  | index, x :: rest => do
    demandThat (x.isFinite && !(x < 0)) (.badOffset index x)
    checkOffsets (index + 1) rest

def SyncSettings.validate (s : SyncSettings) : Except Violation Unit := do
  demandThat (!Text.allBlank s.outputFrame) .blankOutputFrame
  demandThat (s.inputTopics.length ≠ 0) .noTopics
  demandThat (s.inputTopics.length ≠ 1) .oneTopic
  checkTopics [] s.inputTopics
  demandThat (s.offsets.isEmpty || s.offsets.length == s.inputTopics.length)
    (.offsetCount s.inputTopics.length s.offsets.length)
  checkOffsets 0 s.offsets
  demandThat (s.timeout.isFinite && !(s.timeout ≤ 0)) (.timeoutTooSmall s.timeout)
  demandThat (!(SyncSettings.maxTimeout < s.timeout)) (.timeoutTooLarge s.timeout)
  demandThat (s.queueSize ≠ 0) .zeroQueueSize

/-- Checks the static transforms one by one from an index on; the first argument holds the pairs of
frames seen before. -/
def checkFrames : List (String × String) → Nat → List StaticTransform → Except Violation Unit
  | _, _, [] => .ok ()
  | before, index, t :: rest => do
    demandThat (!t.parent.isEmpty && !t.child.isEmpty) (.emptyFrame index)
    demandThat (t.parent ≠ t.child) (.selfParent index t.child)
    demandThat ((t.parent, t.child) ∉ before) (.duplicateTransform index t.parent t.child)
    checkFrames ((t.parent, t.child) :: before) (index + 1) rest

/-- Answers with the first rule that a mock source breaks. -/
def CloudSource.validate (topics : List Topic) (s : CloudSource) : Except Violation Unit := do
  demandThat (s.topic ∈ topics) (.unlistedSource s.topic)
  demandThat (0 < s.frequency) (.sourceFrequency s.topic s.frequency)
  demandThat (!s.frame.isEmpty) (.sourceFrame s.topic)

/-- Answers with the first rule that the mock sources break. -/
def Sources.validate (topics : List Topic) (s : Sources) : Except Violation Unit := do
  s.clouds.forM (CloudSource.validate topics)
  match s.velocity with
  | some v => demandThat (0 < v.frequency) (.velocityFrequency v.frequency)
  | none => .ok ()

/-- Checks the sinks one by one from an index on; the first argument holds the names seen before. -/
def checkSinks : List String → Nat → List SinkPlan → Except Violation Unit
  | _, _, [] => .ok ()
  | before, index, s :: rest => do
    demandThat (!s.name.isEmpty) (.emptySinkName index)
    demandThat (s.name ∉ before) (.duplicateSink s.name)
    demandThat (s.capacity ≠ 0) (.zeroSinkCapacity s.name)
    checkSinks (s.name :: before) (index + 1) rest

def Blueprint.validate (b : Blueprint) : Except Violation Unit := do
  b.synchronizer.validate
  checkFrames [] 0 b.frames
  b.sources.validate b.synchronizer.inputTopics
  checkSinks [] 0 b.sinks

end LidarSync
