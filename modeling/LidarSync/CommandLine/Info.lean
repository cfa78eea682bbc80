import LidarSync.Blueprint.Encoder
import LidarSync.CommandLine.Invocation
import LidarSync.Decimal.Layout
import LidarSync.Document.Json.Printer

/-!
# What `info` shows

The settings of a blueprint, as an outline or as a document. Topics are shown with their offsets and
sources, frames and sinks with their names, each only when asked for.
-/

namespace LidarSync.CommandLine

def versionName : Version → String
  | .v1 => "V1"

/-- The name under which a kind of sink is shown. -/
def sinkKindName : SinkKind → String
  | .log => "Log"
  | .file => "File"

def shown (x : Float) : String := Decimal.Layout.plain.double x

/-- The source that a blueprint names first for a topic, enabled or not. -/
def sourceOf? (b : Blueprint) (t : Topic) : Option CloudSource :=
  b.sources.clouds.find? (·.topic == t)

/-- The offset of a topic; zero when none is given. -/
def offsetOf (b : Blueprint) (t : Topic) : Float := (b.synchronizer.offsetOf.get? t).getD 0

/-- Marks each entry of a list by whether it is the last one. -/
def markLast {α : Type} : List α → List (Bool × α)
  | [] => []
  | [a] => [(true, a)]
  | a :: rest => (false, a) :: markLast rest

/-- The branch of an outline that leads to an entry. -/
def branch (last : Bool) : String := if last then "└─" else "├─"

def banner (title : String) : List String := [
  "╔══════════════════════════════════════════════════════════════╗",
  title,
  "╚══════════════════════════════════════════════════════════════╝",
  ""]

def sourceText : Option CloudSource → String
  | none => "(none)"
  | some s =>
    let mark := if s.enabled then "" else " (disabled)"
    s!"{s.frame} @ {shown s.frequency} Hz, latency {s.latencyMs} ms{mark}"

def topicLines (b : Blueprint) (detailed last : Bool) (t : Topic) : List String :=
  let stem := if last then "   " else "│  "
  s!"   {branch last} {t} -> {t.synchronized}" ::
    if detailed then [
      s!"   {stem}  ├─ Offset: {shown (offsetOf b t)}s",
      s!"   {stem}  └─ Source: {sourceText (sourceOf? b t)}"]
    else []

/-- A part of an outline that is left out when it has no entries. -/
def section? (heading : String) (entries : List String) : List String :=
  if entries.isEmpty then []
  else ["", s!"{heading} ({entries.length})"]
    ++ (markLast entries).map fun (last, e) => s!"   {branch last} {e}"

namespace InfoOptions

def outline (o : InfoOptions) (b : Blueprint) : List String :=
  let s := b.synchronizer
  let head := banner "║               Time Syncer Configuration                      ║" ++ [
    "⚙️  Synchronizer",
    s!"   ├─ Version: {versionName b.version}",
    s!"   ├─ Output frame: {s.outputFrame}",
    s!"   ├─ Timeout: {shown s.timeout}s",
    s!"   ├─ Max queue size: {s.queueSize}",
    s!"   └─ Velocity topic: {s.velocityTopic}",
    "",
    s!"📡 Topics ({s.inputTopics.length})"]
  let topics := (markLast s.inputTopics).flatMap fun (last, t) => topicLines b o.topics last t
  let frames := if o.topics then b.frames.map fun f => s!"{f.child} -> {f.parent}" else []
  let sinks := if o.sinks then b.sinks.map fun p => s!"{p.name} ({sinkKindName p.kind})" else []
  head ++ topics ++ section? "🧭 Static transforms" frames ++ section? "📤 Sinks" sinks ++ [""]

/-- A member of a record that is left out when it has no entries. -/
def members? (name : String) (entries : List Document) : List (String × Document) :=
  if entries.isEmpty then [] else [(name, .list entries)]

def sourceDocument (s : CloudSource) : Document :=
  .record [("frame_id", .text s.frame), ("frequency_hz", .float s.frequency),
    ("latency_ms", .int s.latencyMs), ("enabled", .bool s.enabled)]

def topicDocument (b : Blueprint) (t : Topic) : Document :=
  .record ([("input", .text t), ("output", .text t.synchronized),
    ("offset_sec", .float (offsetOf b t))]
    ++ (sourceOf? b t).toList.map fun s => ("source", sourceDocument s))

def document (o : InfoOptions) (b : Blueprint) : Document :=
  let s := b.synchronizer
  let topics := if o.topics then s.inputTopics.map (topicDocument b) else []
  let frames := if o.topics then
    b.frames.map fun f => .record [("parent", .text f.parent), ("child", .text f.child)] else []
  let sinks := if o.sinks then
    b.sinks.map fun p =>
      .record [("name", .text p.name), ("sink_type", .text (sinkKindName p.kind))] else []
  .record ([
    ("version", .text (versionName b.version)),
    ("synchronizer", .record [
      ("output_frame", .text s.outputFrame),
      ("input_topics", .ofTexts s.inputTopics),
      ("max_queue_size", .int s.queueSize),
      ("timeout_sec", .float s.timeout),
      ("velocity_topic", .text s.velocityTopic)])]
    ++ members? "topics" topics ++ members? "frames" frames ++ members? "sinks" sinks)

def lines (o : InfoOptions) (b : Blueprint) : List String :=
  if o.json then [(o.document b).pretty] else o.outline b

end InfoOptions

end LidarSync.CommandLine
