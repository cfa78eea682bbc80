import LidarSync.Text.Segments

/-!
# A working directory

`Disk` is the part of a file system below the working directory: which directories there are, and
what the files in them hold. Paths are texts with slashes; empty components and `.` mean nothing,
and `..` steps back, at the top to the top. A slash in front means nothing. The operations answer
with the faults that a Unix file system gives, in the order in which it would find them.
-/

namespace LidarSync

/-- Why an operation on files fails. -/
inductive DiskFault where
  | notFound
  | alreadyThere
  | notDirectory
  | isDirectory
  | nameTooLong
  | nulByte
  | notText
deriving DecidableEq, Repr

def DiskFault.message : DiskFault → String
  | notFound => "No such file or directory (os error 2)"
  | alreadyThere => "File exists (os error 17)"
  | notDirectory => "Not a directory (os error 20)"
  | isDirectory => "Is a directory (os error 21)"
  | nameTooLong => "File name too long (os error 36)"
  | nulByte => "file name contained an unexpected NUL byte"
  | notText => "stream did not contain valid UTF-8"

/-- A file with its bytes, or a directory. -/
inductive DiskNode where
  | file (bytes : List UInt8)
  | directory
deriving DecidableEq, Repr

/-- The files and directories below the working directory, by the components of their paths. -/
structure Disk where
  nodes : List (List String × DiskNode)
deriving DecidableEq, Repr

namespace Disk

def empty : Disk := ⟨[]⟩

/-- What is at a list of components; the working directory itself is at the empty one. -/
def node? (d : Disk) (path : List String) : Option DiskNode :=
  if path.isEmpty then some .directory else d.nodes.lookup path

/-- Puts something at a list of components, in place of what was there. -/
def put (d : Disk) (path : List String) (n : DiskNode) : Disk :=
  ⟨(path, n) :: d.nodes.filter (·.1 ≠ path)⟩

def components (path : String) : List String :=
  (Text.segments path).filter fun part => part ≠ "" && part ≠ "."

def join (base path : String) : String :=
  if base.isEmpty then path
  else if base.toList.getLast? = some '/' then base ++ path
  else base ++ "/" ++ path

def namesDirectory (path : String) : Bool :=
  match (Text.segments path).getLast? with
  | some "" => true
  | some "." => true
  | _ => false

def nameLimit : Nat := 255

/-- The length, in bytes, from which on a path is too long. -/
def pathLimit : Nat := 4096

/-- Follows components from a place, each but the last into a directory, to where they lead. -/
def follow (d : Disk) : List String → List String → Except DiskFault (List String)
  | place, [] => .ok place
  | place, name :: rest =>
    match d.node? place with
    | none => .error .notFound
    | some (.file _) => .error .notDirectory
    | some .directory =>
      if nameLimit < name.utf8ByteSize then .error .nameTooLong
      else if name = ".." then follow d place.dropLast rest
      else follow d (place ++ [name]) rest

/-- Where a path leads. What is there need not exist, but all before it does. -/
def resolve (d : Disk) (path : String) : Except DiskFault (List String) :=
  if '\x00' ∈ path.toList then .error .nulByte
  else if path.isEmpty then .error .notFound
  else if pathLimit ≤ path.utf8ByteSize then .error .nameTooLong
  else d.follow [] (components path)

def isDirectory (d : Disk) (path : String) : Bool :=
  match d.resolve path with
  | .ok place => d.node? place = some .directory
  | .error _ => false

def isThere (d : Disk) (path : String) : Bool :=
  match d.resolve path with
  | .ok place =>
    match d.node? place with
    | none => false
    | some .directory => true
    | some (.file _) => !namesDirectory path
  | .error _ => false

def read (d : Disk) (path : String) : Except DiskFault (List UInt8) := do
  let place ← d.resolve path
  match d.node? place with
  | none => .error .notFound
  | some .directory => .error .isDirectory
  | some (.file bytes) => if namesDirectory path then .error .notDirectory else .ok bytes

def readText (d : Disk) (path : String) : Except DiskFault String := do
  let bytes ← d.read path
  match String.fromUTF8? bytes.toByteArray with
  | some s => .ok s
  | none => .error .notText

def write (d : Disk) (path : String) (bytes : List UInt8) : Except DiskFault Disk := do
  let place ← d.resolve path
  match d.node? place with
  | some .directory => .error .isDirectory
  | some (.file _) => .ok (d.put place (.file bytes))
  | none => .ok (d.put place (.file bytes))

/-- Whether the last component of a path is a dot, so that it names what must be there already. -/
def endsInDot (path : String) : Bool :=
  ((Text.segments path).filter (· ≠ "")).getLast? == some "."

def makeDirectory (d : Disk) (path : String) : Except DiskFault Disk := do
  let place ← d.resolve path
  match d.node? place with
  | some .directory => .error .alreadyThere
  | some (.file _) => .error (if endsInDot path then .notDirectory else .alreadyThere)
  | none => if endsInDot path then .error .notFound else .ok (d.put place .directory)

/-- Makes a directory, given the paths of those it is in, the innermost first. -/
def makeWithin (d : Disk) : List String → Except DiskFault Unit × Disk
  | [] => (.ok (), d)
  | path :: outer =>
    let settle := fun (d : Disk) (e : DiskFault) =>
      (if d.isDirectory path then Except.ok () else .error e, d)
    match d.makeDirectory path with
    | .ok d => (.ok (), d)
    | .error .notFound =>
      match makeWithin d outer with
      | (.error e, d) => (.error e, d)
      | (.ok (), d) =>
        match d.makeDirectory path with
        | .ok d => (.ok (), d)
        | .error e => settle d e
    | .error e => settle d e

/-- A path and those of the directories it is in, the innermost first. -/
def withParents (path : String) : List String :=
  if path.isEmpty then []
  else
    let parts := (components path).dropLast
    path :: (List.range parts.length).map fun n =>
      "/".intercalate (parts.take (parts.length - n))

/-- Makes a directory and those it is in. Directories that are there already are fine, and what has
been made before a fault stays. -/
def makeAll (d : Disk) (path : String) : Except DiskFault Unit × Disk :=
  d.makeWithin (withParents path)

/-- The disk with a file added, and with the directories it is in. -/
def withFile (d : Disk) (path : String) (bytes : List UInt8) : Disk :=
  let d := (d.makeWithin (withParents path).tail).2
  (d.write path bytes).toOption.getD d

end Disk

end LidarSync
