import LidarSync.Decimal.Layout
import LidarSync.Document.Basic

/-!
# Writing JSON

Documents as JSON text, on one line or indented by two blanks. Records keep the order of their
members, and a number that JSON cannot write is `null`.
-/

namespace LidarSync.Document

open LidarSync.Decimal

/-- Numbers of single precision: as doubles, but positional from `1e-6` up to below `1e13`. -/
def singleLayout : Layout := { Layout.document with positional := fun x => -6 ≤ x ∧ x < 13 }

def hexDigit (n : Nat) : Char := (Nat.digitChar n)

/-- A character inside a JSON string: quotes, backslashes and control characters are escaped. -/
def jsonChar (c : Char) : String :=
  match c with
  | '"' => "\\\""
  | '\\' => "\\\\"
  | '\n' => "\\n"
  | '\r' => "\\r"
  | '\t' => "\\t"
  | '\x08' => "\\b"
  | '\x0c' => "\\f"
  | c =>
    if c.toNat < 32 then
      "\\u00" ++ String.ofList [hexDigit (c.toNat / 16), hexDigit (c.toNat % 16)]
    else String.singleton c

def jsonString (s : String) : String := "\"" ++ String.join (s.toList.map jsonChar) ++ "\""

/-- The text of a document that is neither a list nor a record. -/
def jsonScalar : Document → String
  | unreadable => "null"
  | null => "null"
  | bool b => if b then "true" else "false"
  | int n => toString n
  | float x => Layout.document.double x
  | single x => singleLayout.word (WordFormat.single.decode x.bits.toNat)
  | text s => jsonString s
  | list _ => "[]"
  | record _ => "\x7b\x7d"

mutual

def compact : Document → String
  | list items => "[" ++ ",".intercalate (compactItems items) ++ "]"
  | record members => "\x7b" ++ ",".intercalate (compactMembers members) ++ "\x7d"
  | d => jsonScalar d

def compactItems : List Document → List String
  | [] => []
  | d :: rest => compact d :: compactItems rest

def compactMembers : List (String × Document) → List String
  | [] => []
  | (name, d) :: rest => (jsonString name ++ ":" ++ compact d) :: compactMembers rest

end

/-- The start of a line at a depth of nesting. -/
def indent (depth : Nat) : String := String.ofList (List.replicate (2 * depth) ' ')

/-- Lines between two brackets, indented; nothing at all between them when there are no lines. -/
def block (opening closing : String) (depth : Nat) (lines : List String) : String :=
  if lines.isEmpty then opening ++ closing
  else opening ++ "\n" ++ ",\n".intercalate (lines.map (indent (depth + 1) ++ ·)) ++ "\n"
    ++ indent depth ++ closing

mutual

/-- A document over several lines, the first one at a depth of nesting. -/
def prettyAt (depth : Nat) : Document → String
  | list items => block "[" "]" depth (prettyItems (depth + 1) items)
  | record members => block "\x7b" "\x7d" depth (prettyMembers (depth + 1) members)
  | d => jsonScalar d

def prettyItems (depth : Nat) : List Document → List String
  | [] => []
  | d :: rest => prettyAt depth d :: prettyItems depth rest

def prettyMembers (depth : Nat) : List (String × Document) → List String
  | [] => []
  | (name, d) :: rest =>
    (jsonString name ++ ": " ++ prettyAt depth d) :: prettyMembers depth rest

end

def pretty (d : Document) : String := prettyAt 0 d

end LidarSync.Document
