import LidarSync.Document.Decoder

/-!
# Records

A record is read off an object, whose members come in any order and may include unknown ones, or off
a list, which holds the fields in the order of their declaration. `Fields` describes the fields of a
record once for both. Of several problems the one that shows first in the text is reported; a
missing field shows where the object ends.
-/

namespace LidarSync.Document

variable {α β : Type}

/-- What the members of a record are read from. -/
inductive Content where
  | members (ms : List (String × Document))
  | elements (xs : List Document)

/-- The member for the field with a name and a position, with its place in the text. -/
def Content.find (name : String) (position : Nat) : Content → Option (Nat × Document)
  | members ms =>
    match ms.findIdx? (·.1 == name), ms.lookup name with
    | some i, some d => some (i, d)
    | _, _ => none
  | elements xs => xs[position]?.map (position, ·)

/-- A record half read: a value, or the problem that shows first and its place in the text. -/
inductive Reading (α : Type) where
  | value (a : α)
  | problem (place : Nat) (e : ShapeError)

namespace Reading

/-- Reads two parts; the problem at the earlier place wins, and the first part's on a tie. -/
def both (f : Reading (α → β)) (x : Reading α) : Reading β :=
  match f, x with
  | value g, value a => value (g a)
  | value _, problem p e => problem p e
  | problem p e, value _ => problem p e
  | problem p e, problem q e' => if q < p then problem q e' else problem p e

def placed (place : Nat) : Except ShapeError α → Reading α
  | .ok a => value a
  | .error e => problem place e

def toExcept : Reading α → Except ShapeError α
  | value a => .ok a
  | problem _ e => .error e

end Reading

/-- Where a record is read: its format, its title, how many fields it has, and its content. -/
structure Source where
  format : Format
  title : String
  size : Nat
  content : Content

/-- The fields of a record of type `α`: their names in the order of declaration, and how they are
read when the first of them has a given position. -/
structure Fields (α : Type) where
  names : List String
  read : Nat → Source → Reading α

namespace Fields

def done (a : α) : Fields α := ⟨[], fun _ _ => .value a⟩

def andThen (f : Fields (α → β)) (x : Fields α) : Fields β :=
  ⟨f.names ++ x.names, fun i s => (f.read i s).both (x.read (i + f.names.length) s)⟩

instance : Applicative Fields where
  pure := done
  seq f x := andThen f (x ())

def absent (name : String) (position : Nat) (s : Source) : Reading α :=
  match s.content with
  | .members ms => .problem ms.length (.missingField name)
  | .elements _ => .problem position (.invalidLength position s.title s.size)

def required (name : String) (d : Decoder α) : Fields α where
  names := [name]
  read i s :=
    match s.content.find name i with
    | some (place, x) => .placed place (d s.format x)
    | none => absent name i s

def defaulted (name : String) (default : α) (d : Decoder α) : Fields α where
  names := [name]
  read i s :=
    match s.content.find name i with
    | some (place, x) => .placed place (d s.format x)
    | none => .value default

/-- A field that may be `null`, or missing from an object. -/
def nullable (name : String) (d : Decoder α) : Fields (Option α) where
  names := [name]
  read i s :=
    match s.content.find name i, s.content with
    | some (place, x), _ => .placed place (d.optional s.format x)
    | none, .members _ => .value none
    | none, .elements _ => absent name i s

/-- The place and name of the first member that repeats a field. -/
def firstRepeat (names : List String) (seen : List String) (place : Nat) :
    List (String × Document) → Option (Nat × String)
  | [] => none
  | (name, _) :: rest =>
    if name ∈ names then
      if name ∈ seen then some (place, name)
      else firstRepeat names (name :: seen) (place + 1) rest
    else firstRepeat names seen (place + 1) rest

/-- Refuses repeated fields, and in JSON more elements than there are fields. -/
def surplus (names : List String) (s : Source) : Reading Unit :=
  match s.content with
  | .members ms =>
    match firstRepeat names [] 0 ms with
    | some (place, name) => .problem place (.duplicateField name)
    | none => .value ()
  | .elements xs =>
    if s.format = .json ∧ names.length < xs.length then .problem names.length .malformed
    else .value ()

def run (r : Fields α) (title : String) (f : Format) (c : Content) : Except ShapeError α :=
  let s : Source := ⟨f, title, r.names.length, c⟩
  let parts : Reading (Unit → α) := (Reading.value fun a _ => a).both (r.read 0 s)
  (parts.both (surplus r.names s)).toExcept

def decoder (title : String) (r : Fields α) : Decoder α
  | f, .record ms => r.run title f (.members ms)
  | f, .list xs => r.run title f (.elements xs)
  | _, d => mistyped (.recordOf title) d

end Fields

end LidarSync.Document
