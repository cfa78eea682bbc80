import LidarSync.Decimal.Layout
import LidarSync.Document.Basic
import LidarSync.Text.Quoted

/-!
# Shapes and how documents miss them

A decoder wants a document of a certain shape. `ShapeError` says in what way a document has another
one, and `ShapeError.message` puts that into words.
-/

namespace LidarSync.Document

open LidarSync.Decimal

/-- The sizes of unsigned integers. -/
inductive Width where
  | byte
  | word32
  | word64
  | size
deriving DecidableEq, Repr

def Width.limit : Width → Nat
  | byte => 0x100
  | word32 => 0x100000000
  | word64 => 0x10000000000000000
  | size => 0x10000000000000000

/-- What a decoder wants. -/
inductive Wanted where
  | text
  | bytes
  | boolean
  | sequence
  | map
  | unit
  | double
  | single
  | natural (width : Width)
  | recordOf (title : String)
deriving DecidableEq, Repr

def Wanted.words : Wanted → String
  | text => "a string"
  | bytes => "byte array"
  | boolean => "a boolean"
  | sequence => "a sequence"
  | map => "a map"
  | unit => "unit"
  | double => "f64"
  | single => "f32"
  | natural .byte => "u8"
  | natural .word32 => "u32"
  | natural .word64 => "u64"
  | natural .size => "usize"
  | recordOf title => "struct " ++ title

/-- What a document is, as far as a complaint mentions it. -/
inductive Seen where
  | null
  | bool (b : Bool)
  | int (n : Int)
  | float (x : Float)
  | text (s : String)
  | sequence
  | map

/-- How numbers with a point look in complaints about a format. -/
def complaintLayout : Format → Layout
  | .json => Layout.document
  | .toml => { Layout.plain with keepPoint := true }

def Seen.words (f : Format) : Seen → String
  | null => "null"
  | bool b => s!"boolean `{b}`"
  | int n => s!"integer `{n}`"
  | float x => s!"floating point `{(complaintLayout f).double x}`"
  | text s => "string " ++ Text.quoted s
  | sequence => "sequence"
  | map => "map"

/-- How a document misses a shape. -/
inductive ShapeError where
  /-- The text does not follow the rules of its language. -/
  | malformed
  | missingField (name : String)
  | duplicateField (name : String)
  | unknownVariant (name : String) (choices : List String)
  | invalidType (seen : Seen) (wanted : Wanted)
  | invalidValue (seen : Seen) (wanted : Wanted)
  | invalidLength (length : Nat) (title : String) (fields : Nat)

def choiceWords : List String → String
  | [a] => s!"`{a}`"
  | [a, b] => s!"`{a}` or `{b}`"
  | names => "one of " ++ ", ".intercalate (names.map fun n => s!"`{n}`")

/-- The complaint in words; text that breaks the rules of its language gives none. -/
def ShapeError.message (f : Format) : ShapeError → Option String
  | malformed => none
  | missingField name => some s!"missing field `{name}`"
  | duplicateField name => some s!"duplicate field `{name}`"
  | unknownVariant name choices =>
    some s!"unknown variant `{name}`, expected {choiceWords choices}"
  | invalidType seen wanted =>
    some s!"invalid type: {seen.words f}, expected {wanted.words}"
  | invalidValue seen wanted =>
    some s!"invalid value: {seen.words f}, expected {wanted.words}"
  | invalidLength length title fields =>
    some s!"invalid length {length}, expected struct {title} with {fields} elements"

end LidarSync.Document
