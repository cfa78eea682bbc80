import LidarSync.Blueprint.Load
import LidarSync.CommandLine.Info
import LidarSync.Geometry.FrameGraph

/-!
# What `validate` shows

Whether a blueprint can be loaded, what is in it, and what in it looks like a mistake without being
one.
-/

namespace LidarSync.CommandLine

/-- What in a valid blueprint is worth a warning. -/
inductive Warning where
  | noSinks
  | noVelocity
  | noSource (topic : Topic)
  | disabledSource (topic : Topic)
  | unconnectedFrame (frame : String) (topic : Topic) (target : String)
deriving DecidableEq, Repr

def Warning.message : Warning → String
  | noSinks => "No sinks configured - synchronized sets will be dropped"
  | noVelocity => "No velocity source configured - motion compensation will be identity"
  | noSource topic => s!"Topic '{topic}' has no mock source"
  | disabledSource topic => s!"Topic '{topic}' source is disabled - every round will time out"
  | unconnectedFrame frame topic target =>
    s!"Frame '{frame}' of topic '{topic}' has no static transform to '{target}'"

def topicWarning (b : Blueprint) (t : Topic) : Option Warning :=
  match sourceOf? b t with
  | none => some (.noSource t)
  | some s => if s.enabled then none else some (.disabledSource t)

/-- The warning about the frame of a source, given the frames that are connected. -/
def frameWarning (g : FrameGraph Float) (target : String) (s : CloudSource) : Option Warning :=
  match g.lookup target s.frame with
  | some _ => none
  | none => some (.unconnectedFrame s.frame s.topic target)

def warnings (b : Blueprint) : List Warning :=
  let target := b.synchronizer.outputFrame
  let g := FrameGraph.ofTransforms b.frames
  (if b.sinks.isEmpty then [.noSinks] else [])
    ++ (if b.sources.velocity.isNone then [.noVelocity] else [])
    ++ b.synchronizer.inputTopics.filterMap (topicWarning b)
    ++ b.sources.clouds.filterMap (frameWarning g target)

/-- Why `validate` finds no valid blueprint. -/
inductive InvalidConfig where
  | notFound (path : String)
  | notLoaded (e : LoadError)

def InvalidConfig.message : InvalidConfig → String
  | notFound path => s!"File not found: {path}"
  | notLoaded e => e.message

def examine (d : Disk) (path : String) : Except InvalidConfig Blueprint :=
  if d.isThere path then (Blueprint.ofFile d path).mapError .notLoaded
  else .error (.notFound path)

def sourceCount (b : Blueprint) : Nat :=
  b.sources.clouds.length + if b.sources.velocity.isSome then 1 else 0

def shownBool (b : Bool) : String := if b then "true" else "false"

namespace ValidateOptions

def validLines (path : String) (b : Blueprint) : List String :=
  let s := b.synchronizer
  let found := (warnings b).map fun w => s!"  - {w.message}"
  [ s!"✓ Configuration is valid: {path}",
    "",
    s!"  Version: {versionName b.version}",
    s!"  Output frame: {s.outputFrame}",
    s!"  Input topics: {s.inputTopics.length}",
    s!"  Timeout: {shown s.timeout}s",
    s!"  Offsets configured: {shownBool (!s.offsets.isEmpty)}",
    s!"  Static transforms: {b.frames.length}",
    s!"  Sources: {sourceCount b}",
    s!"  Sinks: {b.sinks.length}"]
    ++ if found.isEmpty then [] else "" :: "⚠ Warnings:" :: found

def invalidLines (path : String) (e : InvalidConfig) : List String :=
  [s!"✗ Configuration is invalid: {path}", "", s!"  Error: {e.message}"]

def validDocument (path : String) (b : Blueprint) : Document :=
  let s := b.synchronizer
  let found := (warnings b).map Warning.message
  .record ([("valid", .bool true), ("config_path", .text path)]
    ++ (if found.isEmpty then [] else [("warnings", .ofTexts found)])
    ++ [("summary", .record [
      ("version", .text (versionName b.version)),
      ("output_frame", .text s.outputFrame),
      ("topic_count", .int s.inputTopics.length),
      ("timeout_sec", .float s.timeout),
      ("offsets_configured", .bool (!s.offsets.isEmpty)),
      ("static_transform_count", .int b.frames.length),
      ("source_count", .int (sourceCount b)),
      ("sink_count", .int b.sinks.length)])])

def invalidDocument (path : String) (e : InvalidConfig) : Document :=
  .record [("valid", .bool false), ("config_path", .text path), ("error", .text e.message)]

def lines (o : ValidateOptions) (r : Except InvalidConfig Blueprint) : List String :=
  match r, o.json with
  | .ok b, true => [(validDocument o.config b).pretty]
  | .ok b, false => validLines o.config b
  | .error e, true => [(invalidDocument o.config e).pretty]
  | .error e, false => invalidLines o.config e

end ValidateOptions

end LidarSync.CommandLine
