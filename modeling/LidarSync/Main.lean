import LidarSync.CommandLine.Execution

/-!
# The program

Reads the command line and the environment, carries the command out, and keeps pace with the clock
while a run goes on. Files are looked for and kept below the working directory.
-/

namespace LidarSync.CommandLine

def environment : IO (List (String × String)) :=
  environmentNames.filterMapM fun v => do return (← IO.getEnv v).map (v, ·)

/-- The part of the disk that matters to a command: the file of its blueprint. -/
def snapshot (path : String) : IO Disk := do
  try
    return Disk.empty.withFile path (← IO.FS.readBinFile path).toList
  catch _ => return .empty

def keep (before after : Disk) : IO Unit := do
  for (parts, node) in after.nodes.reverse do
    if before.nodes.contains (parts, node) then continue
    let path := "/".intercalate parts
    match node with
    | .directory => IO.FS.createDirAll path
    | .file bytes =>
      IO.FS.createDirAll (Disk.join "." ("/".intercalate parts.dropLast))
      IO.FS.writeBinFile path bytes.toByteArray

/-- Lets a run go on until it is over, no faster than its clock. -/
partial def keepPace (r : Run) : IO (Option Run) := do
  if r.ended then return some r
  match r.step with
  | none => return none
  | some next =>
    IO.sleep ((next.now - r.now) / nanosPerMilli).toUInt32
    keepPace next

def faultLines : List String → List String
  | [] => []
  | [m] => [s!"Error: {m}"]
  | m :: causes => [s!"Error: {m}", "", "Caused by:"] ++ causes.map (s!"    {·}")

/-- Tells what has come of a command, and keeps its files. -/
def conclude (before : Disk) (o : Outcome) : IO UInt32 := do
  o.lines.forM IO.println
  keep before o.disk
  match o.fault? with
  | none => return 0
  | some f =>
    (faultLines f.messages).forM IO.eprintln
    return 1

def Command.config : Command → String
  | run o => o.config
  | validate o => o.config
  | info o => o.config

def perform (c : Command) : IO UInt32 := do
  let before ← snapshot c.config
  match Execution.ofCommand before c with
  | .done o => conclude before o
  | .running r =>
    let ended ← match r.work with
      | some r => keepPace r
      | none => pure none
    match ended with
    | some r => conclude before (outcomeOf r)
    | none =>
      IO.eprintln "Error: the run broke down"
      return 101

def usage : List String :=
  let option := fun o : OptionSpec => s!"  --{o.name}"
  ["Usage: time-syncer [OPTIONS] <COMMAND>"] ++ program.root.options.map option
    ++ program.levels.flatMap fun (name, l) => ["", name] ++ l.options.map option

end LidarSync.CommandLine

open LidarSync.CommandLine in
/-- The program: it answers with zero if all went well. -/
def main (words : List String) : IO UInt32 := do
  match Invocation.parse (← environment) words with
  | .ok i => perform i.command
  | .error .displayHelp =>
    usage.forM IO.println
    return 0
  | .error .displayVersion =>
    IO.println "time-syncer 0.1.0"
    return 0
  | .error e =>
    IO.eprintln s!"error: {e.label}"
    return 2
