import LidarSync.SyncedSet

/-!
# The metrics recorder

Counters, gauges and histograms as an outside observer collects them. A series is a metric together
with the values of its labels; a series exists once it has been touched.
-/

namespace LidarSync

/-- A metric with the values of its labels. -/
structure Series where
  metric : String
  labels : List (String × String) := []
deriving DecidableEq, Repr

/-- What has been reported. -/
structure Recorder where
  counters : List (Series × Nat) := []
  gauges : List (Series × Float) := []
  histograms : List (Series × List Float) := []

/-- Changes the value of a key, which is `start` when the key is new. -/
def alter {κ β : Type} [DecidableEq κ] (k : κ) (start : β) (f : β → β) :
    List (κ × β) → List (κ × β)
  | [] => [(k, f start)]
  | (n, v) :: rest => if n = k then (n, f v) :: rest else (n, v) :: alter k start f rest

/-- Why a cloud is refused. -/
inductive Rejection where
  | malformed
  | unknownTopic
deriving DecidableEq, Repr

def Rejection.label : Rejection → String
  | malformed => "malformed"
  | unknownTopic => "unknown_topic"

namespace Series

def rounds (t : Trigger) : Series := ⟨"time_syncer_rounds_total", [("trigger", t.label)]⟩

def lastRoundId : Series := ⟨"time_syncer_last_round_id", []⟩

def processingTime : Series := ⟨"time_syncer_processing_time_ms", []⟩

def cycleTime : Series := ⟨"time_syncer_cyclic_time_ms", []⟩

def topicsMissing : Series := ⟨"time_syncer_topics_missing", []⟩

def topicStatus (t : Topic) : Series := ⟨"time_syncer_topic_status", [("topic", t)]⟩

def topicMissing (t : Topic) : Series := ⟨"time_syncer_topic_missing_total", [("topic", t)]⟩

/-- How many clouds of a topic could not be brought into the output frame. -/
def transformFailures (t : Topic) : Series :=
  ⟨"time_syncer_transform_failures_total", [("topic", t)]⟩

def cloudsReceived (t : Topic) : Series := ⟨"time_syncer_clouds_received_total", [("topic", t)]⟩

def cloudsRejected (t : Topic) (r : Rejection) : Series :=
  ⟨"time_syncer_clouds_rejected_total", [("reason", r.label), ("topic", t)]⟩

def velocitySamples : Series := ⟨"time_syncer_velocity_samples_total", []⟩

def truncations : Series := ⟨"time_syncer_compensation_truncated_total", []⟩

def outputDropped : Series := ⟨"time_syncer_output_dropped_total", []⟩

def cloudsPublished (outputTopic : String) : Series :=
  ⟨"time_syncer_clouds_published_total", [("topic", outputTopic)]⟩

def dispatched (sink : String) (ok : Bool) : Series :=
  ⟨"time_syncer_sets_dispatched_total",
    [("sink", sink), ("status", if ok then "success" else "failure")]⟩

/-- Sets that a sink skipped because its queue was full. -/
def sinkDropped (sink : String) : Series := ⟨"time_syncer_sink_dropped_total", [("sink", sink)]⟩

def sinkQueueLength (sink : String) : Series := ⟨"time_syncer_sink_queue_len", [("sink", sink)]⟩

/-- A series as text: the metric, and the labels in braces when there are any. -/
def text (s : Series) : String :=
  if s.labels.isEmpty then s.metric
  else s.metric ++ "\x7b" ++ ",".intercalate (s.labels.map fun (k, v) => k ++ "=" ++ v) ++ "\x7d"

end Series

namespace Recorder

def empty : Recorder := {}

def count (s : Series) (n : Nat) (r : Recorder) : Recorder :=
  { r with counters := alter s 0 (· + n) r.counters }

def tick (s : Series) (r : Recorder) : Recorder := r.count s 1

def gauge (s : Series) (x : Float) (r : Recorder) : Recorder :=
  { r with gauges := alter s x (fun _ => x) r.gauges }

def sample (s : Series) (x : Float) (r : Recorder) : Recorder :=
  { r with histograms := alter s [] (· ++ [x]) r.histograms }

/-- The value of a counter; zero when it was never touched. -/
def total (r : Recorder) (s : Series) : Nat := (r.counters.lookup s).getD 0

def topic (r : Recorder) (t : Topic) (status : TopicStatus) : Recorder :=
  match status with
  | .ok => r.gauge (Series.topicStatus t) 1
  | .missing => (r.gauge (Series.topicStatus t) 0).tick (Series.topicMissing t)

def round (r : Recorder) (s : SyncedSet) : Recorder :=
  let m := s.details
  let r := r.tick (Series.rounds m.trigger)
  let r := r.gauge Series.lastRoundId (Float.ofNat s.roundId)
  let r := r.sample Series.processingTime m.processingMs
  let r := r.sample Series.cycleTime m.cycleMs
  let r := r.gauge Series.topicsMissing (Float.ofNat (m.missing.length + m.failed.length))
  let r := m.diagnostics.topics.foldl (fun r (t, status) => r.topic t status) r
  m.failed.foldl (fun r t => r.tick (Series.transformFailures t)) r

end Recorder

/-- The kinds of metrics. -/
inductive MetricKind where
  | counter
  | gauge
  | histogram
deriving DecidableEq, Repr

def MetricKind.label : MetricKind → String
  | counter => "counter"
  | gauge => "gauge"
  | histogram => "histogram"

/-- What a metric is about, as told to an observer in advance. -/
structure MetricDescription where
  kind : MetricKind
  metric : String
  inMilliseconds : Bool
  words : String

/-- The descriptions of the metrics, in the order in which they are told. -/
def metricDescriptions : List MetricDescription := [
  ⟨.counter, "time_syncer_rounds_total", false, "Published rounds by trigger"⟩,
  ⟨.histogram, "time_syncer_processing_time_ms", true, "Time from round close to publish"⟩,
  ⟨.histogram, "time_syncer_cyclic_time_ms", true, "Wall time between consecutive publishes"⟩,
  ⟨.gauge, "time_syncer_topic_status", false, "1 when the topic made the last round"⟩,
  ⟨.counter, "time_syncer_clouds_rejected_total", false, "Clouds refused on arrival by reason"⟩,
  ⟨.counter, "time_syncer_compensation_truncated_total", false,
    "Motion integrations cut short by a velocity gap"⟩,
  ⟨.counter, "time_syncer_output_dropped_total", false,
    "Rounds dropped because the synchronizer output queue was full"⟩,
  ⟨.counter, "time_syncer_sink_dropped_total", false,
    "Rounds a sink skipped because its queue was full"⟩,
  ⟨.gauge, "time_syncer_sink_queue_len", false, "Rounds waiting in a sink queue"⟩]

end LidarSync
