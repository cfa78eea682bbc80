import LidarSync.Metrics.RunningStats
import LidarSync.SyncedSet

/-!
# Tallies of rounds

What a run adds up over its published sets, and the report about it.
-/

namespace LidarSync

/-- Sums over the sets seen so far. -/
structure RoundTally where
  total : Nat := 0
  complete : Nat := 0
  timeout : Nat := 0
  empty : Nat := 0
  withMissing : Nat := 0
  failures : Nat := 0
  processing : RunningStats Float := .empty
  cycle : RunningStats Float := .empty
  /-- For each topic how many sets lack it. -/
  missingCounts : Keyed Nat := []

namespace RoundTally

/-- Adds a set. The time between rounds counts from the second set on. -/
def add (t : RoundTally) (s : SyncedSet) : RoundTally :=
  let m := s.details
  { total := t.total + 1
    complete := if m.trigger = .complete then t.complete + 1 else t.complete
    timeout := if m.trigger = .timeout then t.timeout + 1 else t.timeout
    empty := if s.isEmpty then t.empty + 1 else t.empty
    withMissing := if s.absent.isEmpty then t.withMissing else t.withMissing + 1
    failures := t.failures + m.failed.length
    processing := t.processing.observe (finite? m.processingMs)
    cycle := if 0 < t.total then t.cycle.observe (finite? m.cycleMs) else t.cycle
    missingCounts := s.absent.foldl (fun c topic => c.bump topic 1) t.missingCounts }

def percentage (part total : Nat) : Float :=
  if 0 < total then Float.ofNat part / Float.ofNat total * 100 else 0

def timeoutRate (t : RoundTally) : Float := percentage t.timeout t.total

def missingRate (t : RoundTally) : Float := percentage t.withMissing t.total

/-- The lines of the report, each with its line end. -/
def report (t : RoundTally) : String :=
  let two := Decimal.fixed 2
  let lines := [
    "=== Time Sync Metrics Summary ===",
    s!"Total rounds: {t.total}",
    s!"Complete rounds: {t.complete}",
    s!"Timeout rounds: {t.timeout} ({two t.timeoutRate}%)",
    s!"Empty rounds: {t.empty}",
    s!"Rounds with missing topics: {t.withMissing} ({two t.missingRate}%)",
    s!"Transform failures: {t.failures}",
    s!"Processing time (ms): {t.processing.summary.text}",
    s!"Cyclic time (ms): {t.cycle.summary.text}"]
  let counts := t.missingCounts.map fun (topic, n) => s!"  {topic}: {n}"
  let lines := if counts.isEmpty then lines else lines ++ "Missing topic counts:" :: counts
  String.join (lines.map (· ++ "\n"))

end RoundTally

end LidarSync
