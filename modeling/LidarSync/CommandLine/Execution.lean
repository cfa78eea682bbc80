import LidarSync.CommandLine.Validation
import LidarSync.Run

/-!
# Carrying out commands

`validate` and `info` are carried out at once. `run` lets command line and environment override
settings of the blueprint and then shows what would be run, or begins a run, which goes on for as
long as its limits allow.
-/

namespace LidarSync.CommandLine

/-- Why a command fails. -/
inductive CommandFault where
  | configNotFound (path : String)
  | notLoaded (path : String) (e : LoadError)
  | badOverride (v : Violation)
  | notValid
  | run (f : RunFault)

def loadCauses : LoadError → List String
  | .unreadable _ fault => [fault.message]
  | _ => []

/-- The fault in words: what could not be done, and why, down to the root of it. -/
def CommandFault.messages : CommandFault → List String
  | configNotFound path => [s!"Configuration file not found: {path}"]
  | notLoaded path e => [s!"Failed to load config from {path}", e.message] ++ loadCauses e
  | badOverride v => [s!"Invalid override for synchronizer: {v.message}"]
  | notValid => ["Configuration validation failed"]
  | run f => "Pipeline execution failed" :: f.messages

/-- The blueprint in a file that has to be there. -/
def loadBlueprint (d : Disk) (path : String) : Except CommandFault Blueprint :=
  if d.isThere path then (Blueprint.ofFile d path).mapError (.notLoaded path)
  else .error (.configNotFound path)

namespace RunOptions

/-- A blueprint with the settings that the command line overrides. -/
def applied (o : RunOptions) (b : Blueprint) : Blueprint :=
  { b with synchronizer := { b.synchronizer with
      timeout := o.timeout.getD b.synchronizer.timeout
      outputFrame := o.outputFrame.getD b.synchronizer.outputFrame } }

/-- Overrides settings of a blueprint, if they are still valid then. -/
def override (o : RunOptions) (b : Blueprint) : Except Violation Blueprint := do
  (o.applied b).synchronizer.validate
  return o.applied b

def unlessZero (n : Nat) : Option Nat := if n = 0 then none else some n

def limits (o : RunOptions) : RunLimits where
  rounds? := unlessZero o.maxRounds
  stop? := (unlessZero o.duration).map (· * nanosPerSecond)

/-- The line about a topic in the summary of a dry run. -/
def topicLine (b : Blueprint) (t : Topic) : String :=
  match b.synchronizer.offsetOf.get? t with
  | some x => s!"  - {t} (offset {shown x}s)"
  | none => s!"  - {t}"

def dryRunLines (b : Blueprint) : List String :=
  let s := b.synchronizer
  let sinks := b.sinks.map fun p => s!"  - {p.name} ({sinkKindName p.kind})"
  [ "",
    "=== Configuration Summary ===",
    "",
    "Synchronizer:",
    s!"  Output frame: {s.outputFrame}",
    s!"  Timeout: {shown s.timeout}s",
    s!"  Velocity topic: {s.velocityTopic}",
    "",
    s!"Topics ({s.inputTopics.length}):"]
    ++ s.inputTopics.map (topicLine b)
    ++ (if sinks.isEmpty then [] else ["", s!"Sinks ({sinks.length}):"] ++ sinks)
    ++ [""]

end RunOptions

/-- What has come of a command: the lines it prints, why it failed if it did, and what is on the
disk afterwards. -/
structure Outcome where
  lines : List String := []
  fault? : Option CommandFault := none
  disk : Disk

/-- The first step of carrying out a command. -/
inductive Execution where
  | done (o : Outcome)
  | running (r : Run)

namespace Execution

def failed (d : Disk) (f : CommandFault) : Execution := .done { fault? := some f, disk := d }

def printed (d : Disk) (lines : List String) : Execution := .done { lines, disk := d }

def info (d : Disk) (o : InfoOptions) : Execution :=
  match loadBlueprint d o.config with
  | .error f => failed d f
  | .ok b => printed d (o.lines b)

/-- Carries out `validate`, which prints its lines also when it fails. -/
def validate (d : Disk) (o : ValidateOptions) : Execution :=
  let r := examine d o.config
  .done { lines := o.lines r, fault? := if r.toBool then none else some .notValid, disk := d }

/-- Carries out `run` up to the beginning of the run. -/
def run (d : Disk) (o : RunOptions) : Execution :=
  match loadBlueprint d o.config with
  | .error f => failed d f
  | .ok b =>
    match o.override b with
    | .error v => failed d (.badOverride v)
    | .ok b =>
      if o.dryRun then printed d (RunOptions.dryRunLines b)
      else match Run.begin b o.limits o.bufferSize d with
        | (.error f, d) => failed d (.run f)
        | (.ok r, _) => .running r

def ofCommand (d : Disk) : Command → Execution
  | .run o => run d o
  | .validate o => validate d o
  | .info o => info d o

end Execution

def outcomeOf (r : Run) : Outcome :=
  let (summary, surroundings) := r.finish
  { lines := summary.lines, disk := surroundings.disk }

end LidarSync.CommandLine
