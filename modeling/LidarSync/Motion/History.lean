import LidarSync.Decimal.Layout
import LidarSync.Motion.Bisection
import LidarSync.Scalar
import LidarSync.Velocity

/-!
# Velocity history

The velocity reports of the last second, in the order of their arrival. A report older than all that
are kept means that the clock went back: what came before it is forgotten. `History.query` answers
with the reports that cover an interval of time. It finds the two ends by bisection, so in a history
that is not in order the answer depends on where it looks (`History.halving`).
-/

namespace LidarSync

variable {α : Type}

/-- A way to search the reports, for whatever a history holds: how often the clock went back, and the
reports themselves. -/
abbrev Halving (α : Type) := Nat → (samples : List (Velocity α)) → Bisection 0 samples.length

/-- Looks in the middle every time. -/
def Halving.middle : Halving α := fun _ samples =>
  .halve samples.length 0 samples.length (Nat.zero_le _) (Nat.le_add_left _ _)

/-- The velocity reports that are kept, the oldest first, how often the clock went back, and where a
search looks. -/
structure History (α : Type) where
  samples : List (Velocity α) := []
  resets : Nat := 0
  halving : Halving α := .middle

namespace History

def empty : History α := {}

def oldest? (h : History α) : Option α := h.samples.head?.map (·.stamp)

def newest? (h : History α) : Option α := h.samples.getLast?.map (·.stamp)

def clear (h : History α) : History α := { h with samples := [] }

variable [Scalar α]

def retention : α := 1.0

/-- Whether a report at a stamp shows that the clock went back. -/
def rewinds (h : History α) (stamp : α) : Bool :=
  match h.oldest? with
  | some oldest => stamp < oldest
  | none => false

/-- Adds a report; reports from a second before it or earlier are dropped at the front. -/
def record (h : History α) (v : Velocity α) : History α :=
  let kept := if h.rewinds v.stamp then [] else h.samples
  { h with
    samples := kept.dropWhile (fun s => s.stamp + retention ≤ v.stamp) ++ [v]
    resets := if h.rewinds v.stamp then h.resets + 1 else h.resets }

/-- Whether the report at a place is older than a stamp. -/
def isOlder (h : History α) (stamp : α) (i : Nat) : Bool :=
  (h.samples[i]?).any fun s => s.stamp < stamp

/-- How many reports in front are older than a stamp, as far as a search can tell. -/
def olderThan (h : History α) (stamp : α) : Nat :=
  (h.halving h.resets h.samples).find (h.isOlder stamp)

/-- The place of the report that answers for a stamp: the first one not older, or the last one. -/
def indexAt (h : History α) (stamp : α) : Nat := min (h.olderThan stamp) (h.samples.length - 1)

/-- The reports from the one that answers for `start` through the one that answers for `stop`. There
is no answer when the first of them stands more than one place behind the second. -/
def query (h : History α) (start stop : α) : Option (List (Velocity α)) :=
  if h.samples.isEmpty ∨ stop < start then some []
  else
    let first := h.indexAt start
    let last := h.indexAt stop
    if last + 1 < first then none
    else some ((h.samples.drop first).take (last + 1 - first))

end History

def inspectStamp : Option Float → String
  | some x => s!"Some({Decimal.Layout.inspected.double x})"
  | none => "None"

def History.inspect (h : History Float) : String :=
  s!"MotionHistory \x7b len: {h.samples.length}, oldest: {inspectStamp h.oldest?}, "
    ++ s!"newest: {inspectStamp h.newest?}, resets: {h.resets} \x7d"

end LidarSync
