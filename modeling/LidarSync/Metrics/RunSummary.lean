import LidarSync.Metrics.RoundTally
import LidarSync.Round.Deadline
import LidarSync.Sink.Tally

/-!
# The summary of a run

What a run of the whole pipeline has to tell at its end: what came in, what was published, how the
rounds went, and what each sink made of them.
-/

namespace LidarSync

/-- What a run has counted. -/
structure RunSummary where
  published : Nat := 0
  received : Nat := 0
  rejected : Nat := 0
  velocitySamples : Nat := 0
  /-- How long the run took, in nanoseconds. -/
  elapsed : Nat := 0
  sources : Nat := 0
  sinks : Nat := 0
  rounds : RoundTally := {}
  deliveries : List (String × SinkTally) := []

namespace RunSummary

/-- How many rounds were published in a second; zero for a run that took no time. -/
def roundsPerSecond (r : RunSummary) : Float :=
  let seconds := secondsOf r.elapsed
  if 0 < seconds then Float.ofNat r.published / seconds else 0

def overview (r : RunSummary) : List String :=
  let two := Decimal.fixed 2
  [ "📊 Overview",
    s!"   ├─ Duration: {two (secondsOf r.elapsed)}s",
    s!"   ├─ Rounds published: {r.published}",
    s!"   ├─ Rounds/s: {two r.roundsPerSecond}",
    s!"   ├─ Clouds received: {r.received}",
    s!"   ├─ Clouds rejected: {r.rejected}",
    s!"   ├─ Velocity samples: {r.velocitySamples}",
    s!"   ├─ Active sources: {r.sources}",
    s!"   └─ Active sinks: {r.sinks}"]

def roundLines (r : RunSummary) : List String :=
  let two := Decimal.fixed 2
  let t := r.rounds
  [ "",
    "📈 Synchronizer",
    s!"   ├─ Complete rounds: {t.complete}",
    s!"   ├─ Timeout rounds: {t.timeout} ({two t.timeoutRate}%)",
    s!"   ├─ Rounds with missing topics: {t.withMissing} ({two t.missingRate}%)",
    s!"   ├─ Empty rounds: {t.empty}",
    s!"   ├─ Transform failures: {t.failures}",
    s!"   ├─ Processing time (ms): {t.processing.summary.text}",
    s!"   └─ Cyclic time (ms): {t.cycle.summary.text}"]

def missingLines (r : RunSummary) : List String :=
  let counts := r.rounds.missingCounts.map fun (topic, n) => s!"   ├─ {topic}: {n}"
  if counts.isEmpty then [] else "" :: "⚠️  Missing Topic Counts" :: counts

/-- What became of the sets offered to each sink, when there is a sink. -/
def sinkLines (r : RunSummary) : List String :=
  let lines := r.deliveries.map fun (name, t) =>
    s!"   ├─ {name}: written {t.written}, failed {t.failed}, dropped {t.dropped}"
  if lines.isEmpty then [] else "" :: "📤 Sinks" :: lines

def lines (r : RunSummary) : List String :=
  [ "",
    "╔══════════════════════════════════════════════════════════════╗",
    "║                    Pipeline Statistics                       ║",
    "╚══════════════════════════════════════════════════════════════╝",
    ""] ++ r.overview ++ r.roundLines ++ r.missingLines ++ r.sinkLines ++ [""]

end RunSummary

end LidarSync
