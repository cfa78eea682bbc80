import LidarSync.Single

/-!
# Documents

The tree that a configuration or data text stands for. Members of a record keep the order of the
text and may repeat a name, so that whoever reads a document can still say which one came first.
-/

namespace LidarSync

/-- The tree of a parsed text, or of a text to be written. -/
inductive Document where
  /-- What follows the grammar of its language and yet stands for no value: it can be skipped, but
  not read. -/
  | unreadable
  | null
  | bool (value : Bool)
  | int (value : Int)
  | float (value : Float)
  /-- A number that is written with the digits a single-precision word needs. -/
  | single (value : Single)
  | text (value : String)
  | list (items : List Document)
  | record (members : List (String × Document))
deriving Inhabited

namespace Document

/-- The languages in which documents are written. -/
inductive Format where
  | toml
  | json
deriving DecidableEq, Repr

def get? (name : String) : Document → Option Document
  | record members => members.lookup name
  | _ => none

end Document

end LidarSync
