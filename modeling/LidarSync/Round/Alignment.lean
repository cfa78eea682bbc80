import LidarSync.Geometry.FrameGraph
import LidarSync.Motion.Compensation
import LidarSync.Round.Slots

/-!
# Alignment

The clouds of a closed round, brought to one stamp and into one frame. The stamp is that of the
oldest cloud; each cloud is moved as the vehicle moved between the two.
-/

namespace LidarSync

/-- The different stamps of a list, the latest first. Stamps that are no number come before all
others and stay apart. -/
def descendingStamps {α : Type} [Scalar α] (stamps : List α) : List α :=
  let sorted := stamps.mergeSort fun a b => Scalar.upTo b a
  dedup sorted
where
  /-- Drops what equals the element before it. -/
  dedup : List α → List α
    | a :: b :: rest => if Scalar.equal a b then dedup (a :: rest) else a :: dedup (b :: rest)
    | short => short

/-- What became of the cloud of one topic. -/
inductive Aligned where
  | missing
  /-- The cloud could not be brought into the output frame. -/
  | failed
  | moved (cloud : Cloud) (summary : CorrectionSummary Float)

def Aligned.cloud? : Aligned → Option Cloud
  | moved c _ => some c
  | _ => none

/-- The summary of a correction that took a cloud with a stamp to the reference. -/
def CorrectionSummary.ofPose {α : Type} [Scalar α] (stamp : α) (pose : Pose α) :
    CorrectionSummary α :=
  ⟨stamp, pose.shift.x, pose.shift.y, pose.rotation.yaw⟩

/-- Brings a cloud into the output frame, moves it by a correction and stamps it with the
reference. -/
def Transformer.align {ε : Type} (m : Transformer ε) (frame : String) (reference : Float)
    (correction : Pose Float) (c : Cloud) : Except ε Cloud := do
  let there ← m.reproject frame c
  let moved ← m.move correction there
  return { moved with header := ⟨reference, frame⟩ }

/-- Aligns the cloud of one topic. There is no answer where the history has none. -/
def alignTopic {ε : Type} (m : Transformer ε) (frame : String) (h : History Float)
    (stamps : List Float) (reference : Float) (c : Cloud) : Option (Aligned × Nat) :=
  (chainedCorrection h stamps c.stamp).map fun chained =>
    let aligned := match m.align frame reference chained.pose c with
      | .ok moved => .moved moved (.ofPose c.stamp chained.pose)
      | .error _ => .failed
    (aligned, chained.truncations)

/-- Aligns what is in one slot. -/
def alignSlot {ε : Type} (m : Transformer ε) (frame : String) (h : History Float)
    (stamps : List Float) (reference : Float) : Option Cloud → Option (Aligned × Nat)
  | none => some (.missing, 0)
  | some c => alignTopic m frame h stamps reference c

/-- A round after its alignment. -/
structure AlignedRound where
  reference : Option Float
  topics : Keyed Aligned
  truncations : Nat

namespace AlignedRound

def clouds (r : AlignedRound) : Keyed (Option Cloud) := r.topics.map fun (t, a) => (t, a.cloud?)

def missing (r : AlignedRound) : List Topic :=
  r.topics.filterMap fun (t, a) => match a with
    | .missing => some t
    | _ => none

/-- The topics whose cloud could not be brought into the output frame. -/
def failed (r : AlignedRound) : List Topic :=
  r.topics.filterMap fun (t, a) => match a with
    | .failed => some t
    | _ => none

/-- The corrections of the clouds of the round. -/
def corrections (r : AlignedRound) : Keyed (CorrectionSummary Float) :=
  r.topics.filterMap fun (t, a) => match a with
    | .moved _ s => some (t, s)
    | _ => none

def notSynchronized (r : AlignedRound) : List Topic :=
  (r.topics.filter (·.2.cloud?.isNone)).map Prod.fst

end AlignedRound

/-- The stamps of the clouds in slots. -/
def TopicSlots.stamps (s : TopicSlots) : List Float :=
  s.filterMap fun (_, c) => c.map Cloud.stamp

/-- Aligns the slots of a closed round, topic by topic. There is no answer where the history has
none for one of the corrections. -/
def TopicSlots.alignWith {ε : Type} (m : Transformer ε) (frame : String) (h : History Float)
    (s : TopicSlots) : Option AlignedRound :=
  let stamps := descendingStamps s.stamps
  match stamps.getLast? with
  | none => some ⟨none, s.map fun (t, _) => (t, .missing), 0⟩
  | some reference => do
    let parts ← s.mapM fun (t, slot) => (alignSlot m frame h stamps reference slot).map (t, ·)
    return ⟨some reference, parts.map fun (t, a, _) => (t, a),
      parts.foldl (fun total (_, _, n) => total + n) 0⟩

/-- Aligns the slots of a closed round over a graph of frames. -/
def TopicSlots.align (g : FrameGraph Float) (frame : String) (h : History Float)
    (s : TopicSlots) : Option AlignedRound :=
  s.alignWith g.transformer frame h

end LidarSync
