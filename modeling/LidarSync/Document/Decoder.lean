import LidarSync.Document.Shape
import LidarSync.Document.Toml.Literal
import LidarSync.Keyed

/-!
# Decoders

A decoder reads a value off a document or says how the document misses the wanted shape. Here are
the decoders of simple values, lists, maps and named choices; those of records are in
`LidarSync.Document.Fields`.
-/

namespace LidarSync.Document

/-- How values of a type are read. The format decides a few cases in which the languages differ. -/
abbrev Decoder (α : Type) := Format → Document → Except ShapeError α

variable {α β : Type}

/-- What a complaint mentions of a document; what stands for no value is a fault of the text. -/
def seen : Document → Except ShapeError Seen
  | unreadable => .error .malformed
  | null => .ok .null
  | bool b => .ok (.bool b)
  | int n => .ok (.int n)
  | float x => .ok (.float x)
  | single x => .ok (.float x.toDouble)
  | text s => .ok (.text s)
  | list _ => .ok .sequence
  | record _ => .ok .map

def mistyped (wanted : Wanted) (d : Document) : Except ShapeError α :=
  match seen d with
  | .ok s => .error (.invalidType s wanted)
  | .error e => .error e

namespace Decoder

def text : Decoder String
  | _, .text s => .ok s
  | _, d => mistyped .text d

def boolean : Decoder Bool
  | _, .bool b => .ok b
  | _, d => mistyped .boolean d

def double : Decoder Float
  | _, .float x => .ok x
  | _, .int n => .ok (Float.ofInt n)
  | _, d => mistyped .double d

def single : Decoder Single
  | _, .float x => .ok (Single.ofDouble x)
  | _, .int n => .ok (Single.ofInt n)
  | _, d => mistyped .single d

def natural (w : Width) : Decoder Nat
  | _, .int n =>
    if 0 ≤ n ∧ n < w.limit then .ok n.toNat
    else .error (.invalidValue (.int n) (.natural w))
  | _, d => mistyped (.natural w) d

/-- Reads the members of a list, the first one first. -/
def each (d : Decoder α) (f : Format) : List Document → Except ShapeError (List α)
  | [] => .ok []
  | x :: xs => do
    let a ← d f x
    let rest ← each d f xs
    return a :: rest

def listOf (d : Decoder α) : Decoder (List α)
  | f, .list xs => each d f xs
  | _, x => mistyped .sequence x

/-- Bytes, as a list of numbers or as the text that they encode. -/
def bytes : Decoder (List UInt8)
  | f, .list xs => (each (natural .byte) f xs).map (·.map Nat.toUInt8)
  | _, .text s => .ok s.toUTF8.toList
  | _, x => mistyped .bytes x

/-- Reads the values of a map in the order of the text. -/
def eachValue (d : Decoder α) (f : Format) :
    List (String × Document) → Except ShapeError (List (String × α))
  | [] => .ok []
  | (k, x) :: xs => do
    let a ← d f x
    let rest ← eachValue d f xs
    return (k, a) :: rest

/-- A map with any names; of a repeated name the last value counts. -/
def mapOf (d : Decoder α) : Decoder (Keyed α)
  | f, .record ms => (eachValue d f ms).map Keyed.ofList
  | _, x => mistyped .map x

def optional (d : Decoder α) : Decoder (Option α)
  | _, .null => .ok none
  | f, x => (d f x).map some

/-- One of several named choices, written as its name, or as a record whose only member has that
name and an empty value. -/
def choice (choices : List (String × α)) : Decoder α := fun f d =>
  let named := fun name => match choices.lookup name with
    | some a => .ok a
    | none => .error (.unknownVariant name (choices.map Prod.fst))
  match f, d with
  | _, .text name => named name
  | .json, .record [(name, content)] => do
    let a ← named name
    match content with
    | .null => .ok a
    | content => mistyped .unit content
  | .toml, .record [(name, content)] =>
    if name = Toml.dateName then .error .malformed
    else do
      let a ← named name
      match content with
      | .list [] => .ok a
      | .record [] => .ok a
      | _ => .error .malformed
  | _, _ => .error .malformed

end Decoder

end LidarSync.Document
