import LidarSync.Blueprint.Encoder
import LidarSync.Blueprint.Valid
import LidarSync.Disk
import LidarSync.Document.Json.Parser
import LidarSync.Document.Json.Printer
import LidarSync.Document.Toml.Parser

/-!
# Loading blueprints

From a text in one of the two formats to a valid blueprint, or the first problem on the way. The
format of a file follows from the extension of its path.
-/

namespace LidarSync

open Document

/-- Why a blueprint cannot be loaded. -/
inductive LoadError where
  | noExtension (path : String)
  | unsupportedExtension (path extension : String)
  | unreadable (path : String) (fault : DiskFault)
  | badText (format : Format) (e : ShapeError)
  | invalid (v : Violation)

def Document.Format.label : Format → String
  | .toml => "TOML"
  | .json => "JSON"

/-- The problem in words. What is wrong with a text is told apart, by `LoadError.detail`. -/
def LoadError.message : LoadError → String
  | noExtension path =>
    s!"config parse error: {path}: cannot determine config format without an extension"
  | unsupportedExtension path extension =>
    s!"config parse error: {path}: unsupported config format .{extension}"
  | unreadable path fault => s!"config parse error: cannot read {path}: {fault.message}"
  | badText format _ => s!"config parse error: {format.label} parse error"
  | invalid v => v.message

/-- What is wrong with a text, where that is the problem. -/
def LoadError.detail : LoadError → Option String
  | badText format e => some ((e.message format).getD "syntax")
  | _ => none

def Document.ofText? : Format → String → Option Document
  | .toml, s => ofToml? s
  | .json, s => ofJson? s

def Document.decodeText {α : Type} (d : Decoder α) (f : Format) (s : String) :
    Except ShapeError α :=
  match Document.ofText? f s with
  | some doc => d f doc
  | none => .error .malformed

namespace Blueprint

/-- The blueprint that a document describes, if it is valid. -/
def ofDocument (f : Format) (d : Document) : Except LoadError Blueprint := do
  let b ← (Blueprint.decoder f d).mapError (.badText f)
  b.validate.mapError .invalid
  return b

def ofText (f : Format) (s : String) : Except LoadError Blueprint :=
  match Document.ofText? f s with
  | some d => ofDocument f d
  | none => .error (.badText f .malformed)

end Blueprint

def asciiLower (s : String) : String := s.map Char.toLower

/-- The format with a file extension, in letters of any case. -/
def Document.Format.ofExtension? (extension : String) : Option Format :=
  match asciiLower extension with
  | "toml" => some .toml
  | "json" => some .json
  | _ => none

/-- The last component of a path, slashes at its end and components `.` passed over. -/
def lastComponent (path : String) : Option String :=
  (Disk.components path).getLast?

/-- What stands in a name after its last dot, if that is not also its first character. -/
def extensionOf (name : String) : Option String :=
  let reversed := name.toList.reverse
  let extension := reversed.takeWhile (· ≠ '.')
  match reversed.drop extension.length with
  | '.' :: stem => if stem.isEmpty then none else some (String.ofList extension.reverse)
  | _ => none

def pathExtension (path : String) : Option String :=
  match lastComponent path with
  | some ".." => none
  | some name => extensionOf name
  | none => none

def Document.Format.ofPath (path : String) : Except LoadError Format :=
  match pathExtension path with
  | none => .error (.noExtension path)
  | some extension =>
    match Document.Format.ofExtension? extension with
    | some f => .ok f
    | none => .error (.unsupportedExtension path extension)

def Blueprint.ofFile (d : Disk) (path : String) : Except LoadError Blueprint := do
  let f ← Document.Format.ofPath path
  let s ← (d.readText path).mapError (.unreadable path)
  Blueprint.ofText f s

end LidarSync
