import LidarSync.Document.Basic
import LidarSync.Motion.History
import LidarSync.Sink.Feed

/-!
# The log sink

A sink that writes no data: for each set it logs how the set came about, what each cloud is and
which topics have none.
-/

namespace LidarSync

/-- How much a log event matters. -/
inductive Severity where
  | debug
  | info
  | warn
deriving DecidableEq, Repr

def Severity.label : Severity → String
  | debug => "DEBUG"
  | info => "INFO"
  | warn => "WARN"

/-- A message for the log, with what it is about. -/
structure LogEvent where
  severity : Severity
  message : String
  fields : List (String × Document)

namespace SyncedSet

/-- The event that tells of a set as a whole. -/
def summaryEvent (sink : String) (s : SyncedSet) : LogEvent where
  severity := .info
  message := "SyncedCloudSet received"
  fields := [
    ("sink", .text sink),
    ("round_id", .int s.roundId),
    ("trigger", .text s.details.trigger.label),
    ("reference_stamp", .text (inspectStamp s.reference)),
    ("present", .int s.present.length),
    ("topics", .int s.clouds.length),
    ("processing_time_ms", .float s.details.processingMs),
    ("diagnostics", .text s.details.diagnostics.message)]

def cloudEvent (sink : String) (outputTopic : String) (c : Cloud) : LogEvent where
  severity := .debug
  message := "synchronized cloud"
  fields := [
    ("sink", .text sink),
    ("topic", .text outputTopic),
    ("points", .int c.count),
    ("stamp", .float c.stamp)]

/-- The event that tells of a topic without a cloud. -/
def absenceEvent (sink : String) (s : SyncedSet) (t : Topic) : LogEvent where
  severity := .warn
  message := "no synchronized cloud for topic, skipping publish"
  fields := [("sink", .text sink), ("round_id", .int s.roundId), ("topic", .text t)]

def events (sink : String) (s : SyncedSet) : List LogEvent :=
  s.summaryEvent sink :: s.published.map (fun (t, c) => cloudEvent sink t c)
    ++ s.absent.map (s.absenceEvent sink)

end SyncedSet

def closedEvent (sink : String) : LogEvent where
  severity := .info
  message := "LogSink closed"
  fields := [("sink", .text sink)]

def logSink (name : String) : Sink (List LogEvent) where
  write s log := .finished true (log ++ s.events name)
  close log := log ++ [closedEvent name]

end LidarSync
