import LidarSync.CommandLine.Number

/-!
# Reading command lines

A program has options that every subcommand shares and subcommands with options of their own. A
`Level` is the table of the options that may stand at one place, `Program.parse` reads the words of
a command line and fills up from environment variables what the words leave open.

The value of an option is looked at when the next option comes, so a word that no option bears is
found before a bad value in front of it.
-/

namespace LidarSync.CommandLine

/-- Why a command line is not carried out. Asking for help or for the version is one reason. -/
inductive Refusal where
  | unknownArgument
  | invalidValue
  | valueValidation
  | tooManyValues
  | argumentConflict
  | invalidSubcommand
  | missingSubcommand
  | displayHelp
  | displayVersion
  /-- There is nothing on the command line, so help is shown. -/
  | displayHelpForNothing
deriving DecidableEq, Repr

def Refusal.label : Refusal → String
  | unknownArgument => "UnknownArgument"
  | invalidValue => "InvalidValue"
  | valueValidation => "ValueValidation"
  | tooManyValues => "TooManyValues"
  | argumentConflict => "ArgumentConflict"
  | invalidSubcommand => "InvalidSubcommand"
  | missingSubcommand => "MissingSubcommand"
  | displayHelp => "DisplayHelp"
  | displayVersion => "DisplayVersion"
  | displayHelpForNothing => "DisplayHelpOnMissingArgumentOrSubcommand"

/-- The values that an option can have. -/
inductive ValueKind where
  | text
  | path
  | real
  | natural (limit : Nat) (signed : Bool)
  | choice (names : List String)

/-- The value of an option. -/
inductive Value where
  | text (s : String)
  | real (x : Float)
  | natural (n : Nat)
  /-- An option without a value is there. -/
  | present

def ValueKind.read (k : ValueKind) (s : String) : Except Refusal Value :=
  match k with
  | .text => .ok (.text s)
  | .path => if s.isEmpty then .error .invalidValue else .ok (.text s)
  | .choice names => if s ∈ names then .ok (.text s) else .error .invalidValue
  | .real => match real? s with
    | some x => .ok (.real x)
    | none => .error .valueValidation
  | .natural limit signed => match natural? limit signed s with
    | some n => .ok (.natural n)
    | none => .error .valueValidation

/-- What an option does. -/
inductive Effect where
  | help
  | version
  | present
  /-- The option may be repeated, up to 255 times. -/
  | count
  | value (k : ValueKind)

/-- An option with its names and the environment variable that stands in for it. -/
structure OptionSpec where
  name : String
  short : Option Char := none
  effect : Effect
  standIn : Option String := none

/-- Where a value comes from. -/
inductive Origin where
  | environment
  | words
deriving DecidableEq, Repr

/-- The table of a place on the command line. -/
structure Level where
  options : List OptionSpec
  subcommands : List String := []
  /-- Pairs of options that exclude each other. -/
  exclusive : List (String × String) := []

/-- What has been read at a level. -/
structure Gathered where
  values : List (String × Origin × Value) := []
  /-- The option read last, if it takes a value, and the value if there is one already. -/
  pending : Option (OptionSpec × ValueKind × Option String) := none

namespace Gathered

def has (g : Gathered) (name : String) : Bool := (g.values.lookup name).isSome

/-- Whether the next word is the value of an option. -/
def awaits (g : Gathered) : Bool :=
  match g.pending with
  | some (_, _, none) => true
  | _ => false

def put (g : Gathered) (name : String) (from? : Origin) (v : Value) : Gathered :=
  { g with values := (name, from?, v) :: g.values.filter (·.1 ≠ name) }

/-- Takes a word as the value of an option; an option has one value at most. -/
def take (g : Gathered) (o : OptionSpec) (k : ValueKind) (word? : Option String) :
    Except Refusal Gathered :=
  match word? with
  | none => .error .invalidValue
  | some w => do
    if g.has o.name then .error .argumentConflict
    return g.put o.name .words (← k.read w)

def settle (g : Gathered) : Except Refusal Gathered :=
  match g.pending with
  | none => .ok g
  | some (o, k, word?) => take { g with pending := none } o k word?

def await (g : Gathered) (o : OptionSpec) (k : ValueKind) : Except Refusal Gathered := do
  return { ← g.settle with pending := some (o, k, none) }

/-- Takes a word that stands where the value of an option is awaited. -/
def answer (g : Gathered) (word : String) : Gathered :=
  { g with pending := g.pending.map fun (o, k, _) => (o, k, some word) }

def countOf (g : Gathered) (name : String) : Nat :=
  match g.values.lookup name with
  | some (_, .natural n) => n
  | _ => 0

def mark (g : Gathered) (o : OptionSpec) : Except Refusal Gathered := do
  let g ← g.settle
  match o.effect with
  | .help => .error .displayHelp
  | .version => .error .displayVersion
  | .count => return g.put o.name .words (.natural (min (g.countOf o.name + 1) 255))
  | _ =>
    if g.has o.name then .error .argumentConflict
    return g.put o.name .words .present

end Gathered

namespace Level

/-- Reads an option by its long name, with the value attached to it by an equals sign, if any. -/
def readLong (l : Level) (g : Gathered) (name : String) (attached? : Option String) :
    Except Refusal Gathered :=
  match l.options.find? (·.name == name) with
  | none => .error .unknownArgument
  | some o =>
    match o.effect, attached? with
    | .value k, some w => do (← g.settle).take o k (some w)
    | .value k, none => g.await o k
    | _, some _ => .error .tooManyValues
    | _, none => g.mark o

/-- Reads options by their short names. What follows an option with a value is that value, an equals
sign in between left out. -/
def readShort (l : Level) : Gathered → List Char → Except Refusal Gathered
  | g, [] => .ok g
  | g, c :: rest =>
    match l.options.find? (·.short == some c) with
    | none => .error .unknownArgument
    | some o =>
      match o.effect with
      | .value k =>
        match rest with
        | [] => g.await o k
        | '=' :: w => do (← g.settle).take o k (some (String.ofList w))
        | w => do (← g.settle).take o k (some (String.ofList w))
      | _ => do readShort l (← g.mark o) rest

/-- Why a word that is neither an option nor a value is refused. -/
def stray (l : Level) : Refusal :=
  if l.subcommands.isEmpty then .unknownArgument else .invalidSubcommand

/-- What the words after a double dash lead to: no level takes any. -/
def readRest (l : Level) (g : Gathered) : List String → Except Refusal Gathered
  | [] => .ok g
  | w :: _ => .error (if w ∈ l.subcommands then .unknownArgument else l.stray)

def helpAbout (l : Level) : List String → Refusal
  | [] => .displayHelp
  | [w] => if w ∈ l.subcommands then .displayHelp else .invalidSubcommand
  | _ => .invalidSubcommand

/-- The name of a long option and what is attached to it. -/
def splitLong (s : List Char) : String × Option String :=
  let name := s.takeWhile (· ≠ '=')
  (String.ofList name, match s.drop name.length with
    | _ :: value => some (String.ofList value)
    | [] => none)

/-- Reads words up to a subcommand, which comes with the words after it. -/
def read (l : Level) :
    Gathered → List String → Except Refusal (Gathered × Option (String × List String))
  | g, [] => .ok (g, none)
  | g, w :: rest =>
    if !g.awaits && w ∈ l.subcommands then
      if w = "help" then .error (l.helpAbout rest) else .ok (g, some (w, rest))
    else match w.toList with
      | ['-', '-'] => do return (← l.readRest g rest, none)
      | '-' :: '-' :: s => do
        let (name, attached?) := splitLong s
        read l (← l.readLong g name attached?) rest
      | '-' :: c :: s => do read l (← l.readShort g (c :: s)) rest
      | _ => if g.awaits then read l (g.answer w) rest else .error l.stray

/-- Fills up from the environment what the words leave open. -/
def readEnvironment (l : Level) (env : List (String × String)) (g : Gathered) :
    Except Refusal Gathered :=
  l.options.foldlM (fun g o =>
    match g.has o.name, o.standIn.bind (env.lookup ·), o.effect with
    | false, some w, .value k => do return g.put o.name .environment (← k.read w)
    | false, some w, .count => do
      return g.put o.name .environment (← (ValueKind.natural 255 true).read w)
    | _, _, _ => .ok g) g

/-- Completes what has been read: the last value, the environment, and no two options that exclude
each other. -/
def complete (l : Level) (env : List (String × String)) (missing : Gathered → Except Refusal Unit)
    (g : Gathered) : Except Refusal Gathered := do
  let g ← l.readEnvironment env (← g.settle)
  missing g
  if l.exclusive.any fun (a, b) => g.has a && g.has b then .error .argumentConflict
  return g

end Level

/-- The tables of a program. -/
structure Program where
  root : Level
  levels : List (String × Level)

/-- What a command line says: a subcommand, what stands before it, and what stands after it. -/
structure Reading where
  before : Gathered
  subcommand : String
  after : Gathered

namespace Program

/-- A program without a subcommand is refused, with help when nothing at all is said. -/
def noSubcommand (g : Gathered) : Except Refusal Unit :=
  .error (if g.values.isEmpty then .displayHelpForNothing else .missingSubcommand)

/-- Reads a command line. What follows the subcommand is looked through first. -/
def parse (p : Program) (env : List (String × String)) (words : List String) :
    Except Refusal Reading := do
  match ← p.root.read {} words with
  | (g, none) =>
    let _ ← p.root.complete env noSubcommand g
    .error .missingSubcommand
  | (g, some (name, rest)) =>
    let l := (p.levels.lookup name).getD ⟨[], [], []⟩
    let (after, _) ← l.read {} rest
    let after ← l.complete env (fun _ => .ok ()) after
    let before ← p.root.complete env (fun _ => .ok ()) g
    return ⟨before, name, after⟩

end Program

namespace Reading

def value? (r : Reading) (name : String) : Option Value :=
  (r.after.values.lookup name).map Prod.snd

/-- The value of an option that all subcommands share. Words count before the environment, and what
stands after the subcommand before what stands in front of it. -/
def shared? (r : Reading) (name : String) : Option Value :=
  match r.before.values.lookup name, r.after.values.lookup name with
  | some (.words, v), some (.environment, _) => some v
  | _, some (_, v) => some v
  | some (_, v), none => some v
  | none, none => none

end Reading

end LidarSync.CommandLine
