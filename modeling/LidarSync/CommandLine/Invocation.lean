import LidarSync.CommandLine.Grammar

/-!
# The command line of the synchronizer

The options of the program and its three subcommands, as tables and as typed values.
-/

namespace LidarSync.CommandLine

/-- How log messages are laid out. -/
inductive LogFormat where
  | json
  | pretty
  | compact
deriving DecidableEq, Repr

/-- The log formats by the names that the command line has for them. -/
def LogFormat.names : List (String × LogFormat) :=
  [("json", .json), ("pretty", .pretty), ("compact", .compact)]

/-- What `run` is asked to do. -/
structure RunOptions where
  config : String := "config.toml"
  timeout : Option Float := none
  outputFrame : Option String := none
  /-- How many rounds to publish; zero stands for any number. -/
  maxRounds : Nat := 0
  /-- How many seconds to run; zero stands for any number. -/
  duration : Nat := 0
  dryRun : Bool := false
  /-- How many messages may wait between the sources and the synchronizer. -/
  bufferSize : Nat := 256
  /-- Where metrics are served; zero stands for nowhere. -/
  metricsPort : Nat := 0

/-- What `validate` is asked to do. -/
structure ValidateOptions where
  config : String := "config.toml"
  json : Bool := false

/-- What `info` is asked to do. -/
structure InfoOptions where
  config : String := "config.toml"
  json : Bool := false
  topics : Bool := false
  sinks : Bool := false

/-- A subcommand with its options. -/
inductive Command where
  | run (o : RunOptions)
  | validate (o : ValidateOptions)
  | info (o : InfoOptions)

/-- A command line. -/
structure Invocation where
  verbosity : Nat
  quiet : Bool
  logFormat : LogFormat
  command : Command

def sharedOptions : List OptionSpec := [
  { name := "verbose", short := some 'v', effect := .count, standIn := some "TIME_SYNCER_VERBOSE" },
  { name := "quiet", short := some 'q', effect := .present },
  { name := "log-format", effect := .value (.choice (LogFormat.names.map Prod.fst)),
    standIn := some "TIME_SYNCER_LOG_FORMAT" }]

def helpOption : OptionSpec := { name := "help", short := some 'h', effect := .help }

def versionOption : OptionSpec := { name := "version", short := some 'V', effect := .version }

def switch (name : String) : OptionSpec := { name, effect := .present }

def configOption : OptionSpec := { name := "config", short := some 'c', effect := .value .path }

/-- An option with a value for which an environment variable can stand in. -/
def setting (name : String) (k : ValueKind) (standIn : String) : OptionSpec :=
  { name, effect := .value k, standIn := some standIn }

/-- The table of a subcommand with options of its own. -/
def subcommandLevel (own : List OptionSpec) : Level where
  options := own ++ sharedOptions ++ [helpOption]
  exclusive := [("quiet", "verbose")]

def largestWord : Nat := Document.wordLimit - 1

def runOptions : List OptionSpec := [
  { configOption with standIn := some "TIME_SYNCER_CONFIG" },
  setting "timeout-sec" .real "TIME_SYNCER_TIMEOUT_SEC",
  setting "output-frame" .text "TIME_SYNCER_OUTPUT_FRAME",
  setting "max-rounds" (.natural largestWord false) "TIME_SYNCER_MAX_ROUNDS",
  setting "duration" (.natural largestWord false) "TIME_SYNCER_DURATION",
  switch "dry-run",
  setting "buffer-size" (.natural largestWord false) "TIME_SYNCER_BUFFER_SIZE",
  setting "metrics-port" (.natural 65535 true) "TIME_SYNCER_METRICS_PORT"]

def program : Program where
  root := {
    options := sharedOptions ++ [helpOption, versionOption]
    subcommands := ["run", "validate", "info", "help"]
    exclusive := [("quiet", "verbose")] }
  levels := [
    ("run", subcommandLevel runOptions),
    ("validate", subcommandLevel [configOption, switch "json"]),
    ("info", subcommandLevel [configOption, switch "json", switch "topics", switch "sinks"])]

def environmentNames : List String :=
  (program.levels.flatMap (·.2.options)).filterMap (·.standIn)

namespace Reading

def textOr (r : Reading) (name dflt : String) : String :=
  match r.value? name with
  | some (.text s) => s
  | _ => dflt

def text? (r : Reading) (name : String) : Option String :=
  match r.value? name with
  | some (.text s) => some s
  | _ => none

def realOf? (r : Reading) (name : String) : Option Float :=
  match r.value? name with
  | some (.real x) => some x
  | _ => none

def naturalOr (r : Reading) (name : String) (dflt : Nat) : Nat :=
  match r.value? name with
  | some (.natural n) => n
  | _ => dflt

def isSet (r : Reading) (name : String) : Bool := (r.value? name).isSome

def config (r : Reading) : String := r.textOr "config" "config.toml"

def command (r : Reading) : Command :=
  match r.subcommand with
  | "run" => .run {
      config := r.config
      timeout := r.realOf? "timeout-sec"
      outputFrame := r.text? "output-frame"
      maxRounds := r.naturalOr "max-rounds" 0
      duration := r.naturalOr "duration" 0
      dryRun := r.isSet "dry-run"
      bufferSize := r.naturalOr "buffer-size" 256
      metricsPort := r.naturalOr "metrics-port" 0 }
  | "validate" => .validate { config := r.config, json := r.isSet "json" }
  | _ => .info {
      config := r.config
      json := r.isSet "json"
      topics := r.isSet "topics"
      sinks := r.isSet "sinks" }

def invocation (r : Reading) : Invocation where
  verbosity := match r.shared? "verbose" with
    | some (.natural n) => n
    | _ => 0
  quiet := (r.shared? "quiet").isSome
  logFormat := match r.shared? "log-format" with
    | some (.text s) => (LogFormat.names.lookup s).getD .pretty
    | _ => .pretty
  command := r.command

end Reading

def Invocation.parse (env : List (String × String)) (words : List String) :
    Except Refusal Invocation :=
  (program.parse env words).map Reading.invocation

end LidarSync.CommandLine
