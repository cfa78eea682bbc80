import LidarSync.Document.Toml.Literal
import LidarSync.Document.Toml.Table

/-!
# Reading TOML

`Document.ofToml?` reads a TOML text into a record. A text is a run of statements, each a table
header or an assignment; they are read one by one and put into the table under construction.
-/

namespace LidarSync.Document.Toml

/-- How many arrays and inline tables may be open at once in one value. -/
def depthLimit : Nat := 80

/-- Line ends of two characters become line ends of one. -/
def unifyLineEnds : List Char → List Char
  | '\r' :: '\n' :: rest => '\n' :: unifyLineEnds rest
  | c :: rest => c :: unifyLineEnds rest
  | [] => []

/-- Whether a character may not stand in a comment or a string as it is. -/
def isControl (c : Char) : Bool := (c.toNat < 32 && c != '\t') || c == '\x7f'

def skipSpaces (s : List Char) : List Char := s.dropWhile fun c => c == ' ' || c == '\t'

/-- Drops a comment, if there is one, up to the end of its line. -/
def skipComment : List Char → Option (List Char)
  | '#' :: rest =>
    if (rest.takeWhile (· ≠ '\n')).any isControl then none
    else some (rest.dropWhile (· ≠ '\n'))
  | s => some s

def skipLines : Nat → List Char → Option (List Char)
  | 0, s => some s
  | fuel + 1, s => do
    match ← skipComment (skipSpaces s) with
    | '\n' :: rest => skipLines fuel rest
    | s => some s

/-- Drops what may stand between the elements of an array. -/
def skipGaps (s : List Char) : Option (List Char) := skipLines (s.length + 1) s

/-! ## Strings -/

/-- The character with a code point of a number of hexadecimal digits. -/
def codePoint (digits : Nat) : Scan Char := fun s =>
  let ds := s.take digits
  let n := natOfDigits 16 ds
  if ds.length = digits ∧ ds.all (hexValue? · |>.isSome) ∧ n.isValidChar then
    some (Char.ofNat n, s.drop digits)
  else none

def escape : Scan Char
  | 'b' :: rest => some ('\x08', rest)
  | 't' :: rest => some ('\t', rest)
  | 'n' :: rest => some ('\n', rest)
  | 'f' :: rest => some ('\x0c', rest)
  | 'r' :: rest => some ('\r', rest)
  | '"' :: rest => some ('"', rest)
  | '\\' :: rest => some ('\\', rest)
  | 'u' :: rest => codePoint 4 rest
  | 'U' :: rest => codePoint 8 rest
  | _ => none

/-- A string on one line up to its closing quote, put before the characters already `read`, the
latest first. -/
def lineString (delimiter : Char) (escapes : Bool) : Nat → List Char → Scan String
  | 0, _, _ => none
  | _ + 1, _, [] => none
  | fuel + 1, read, c :: rest =>
    if c = delimiter then some (String.ofList read.reverse, rest)
    else if c = '\\' ∧ escapes then
      match escape rest with
      | some (c, rest) => lineString delimiter escapes fuel (c :: read) rest
      | none => none
    else if isControl c then none
    else lineString delimiter escapes fuel (c :: read) rest

/-- Whether a backslash is followed by nothing but blanks on its line, and what comes after the
line break and the blanks after it. -/
def joinedLine (s : List Char) : Option (List Char) :=
  match skipSpaces s with
  | '\n' :: rest => some (rest.dropWhile fun c => c == ' ' || c == '\t' || c == '\n')
  | _ => none

/-- A string over several lines up to three closing quotes; up to two more quotes before them belong
to the string. -/
def blockString (delimiter : Char) (escapes : Bool) : Nat → List Char → Scan String
  | 0, _, _ => none
  | _ + 1, _, [] => none
  | fuel + 1, read, c :: rest =>
    if c = delimiter then
      let quotes := (c :: rest).takeWhile (· = delimiter)
      if 3 ≤ quotes.length then
        if quotes.length ≤ 5 then
          some (String.ofList ((quotes.drop 3 ++ read).reverse), rest.drop (quotes.length - 1))
        else none
      else blockString delimiter escapes fuel (c :: read) rest
    else if c = '\\' ∧ escapes then
      match joinedLine rest with
      | some rest => blockString delimiter escapes fuel read rest
      | none =>
        match escape rest with
        | some (c, rest) => blockString delimiter escapes fuel (c :: read) rest
        | none => none
    else if isControl c ∧ c ≠ '\n' then none
    else blockString delimiter escapes fuel (c :: read) rest

def skipNewline : List Char → List Char
  | '\n' :: rest => rest
  | s => s

def stringValue : Scan String
  | '"' :: '"' :: '"' :: rest => blockString '"' true (rest.length + 1) [] (skipNewline rest)
  | '\'' :: '\'' :: '\'' :: rest =>
    blockString '\'' false (rest.length + 1) [] (skipNewline rest)
  | '"' :: rest => lineString '"' true (rest.length + 1) [] rest
  | '\'' :: rest => lineString '\'' false (rest.length + 1) [] rest
  | _ => none

/-! ## Keys -/

/-- Whether a character may stand in a key without quotes. -/
def isBareKeyChar (c : Char) : Bool := c.isAlphanum || c == '_' || c == '-'

def simpleKey : Scan String
  | '"' :: rest => lineString '"' true (rest.length + 1) [] rest
  | '\'' :: rest => lineString '\'' false (rest.length + 1) [] rest
  | s =>
    let name := s.takeWhile isBareKeyChar
    if name.isEmpty then none else some (String.ofList name, s.dropWhile isBareKeyChar)

def keyPath : Nat → Scan (List String)
  | 0, _ => none
  | fuel + 1, s => do
    let (name, rest) ← simpleKey (skipSpaces s)
    match skipSpaces rest with
    | '.' :: rest =>
      let (path, rest) ← keyPath fuel rest
      some (name :: path, rest)
    | rest => some ([name], rest)

def key (s : List Char) : Option (List String × List Char) := keyPath (s.length + 1) s

/-! ## Values -/

mutual

/-- A value that may open `depth` more arrays and inline tables. -/
def value (depth : Nat) : Nat → Scan Document
  | 0, _ => none
  | fuel + 1, s =>
    match s with
    | '"' :: _ => (stringValue s).map fun (t, rest) => (.text t, rest)
    | '\'' :: _ => (stringValue s).map fun (t, rest) => (.text t, rest)
    | '[' :: rest =>
      if depth = 0 then none
      else (elements (depth - 1) fuel rest).map fun (ds, rest) => (.list ds, rest)
    | '\x7b' :: rest =>
      if depth = 0 then none
      else match skipSpaces rest with
        | '\x7d' :: rest => some (.record [], rest)
        | rest =>
          (inlineMembers (depth - 1) fuel [] rest).map fun (t, rest) =>
            (.record (membersToDocument t), rest)
    | s => literal s

/-- The elements of an array through its closing bracket; a comma may follow the last one. -/
def elements (depth : Nat) : Nat → Scan (List Document)
  | 0, _ => none
  | fuel + 1, s => do
    match ← skipGaps s with
    | ']' :: rest => some ([], rest)
    | s =>
      let (d, rest) ← value depth fuel s
      match ← skipGaps rest with
      | ',' :: rest =>
        let (ds, rest) ← elements depth fuel rest
        some (d :: ds, rest)
      | ']' :: rest => some ([d], rest)
      | _ => none

/-- One or more assignments of an inline table through its closing brace, put into the table. -/
def inlineMembers (depth : Nat) : Nat → Table → Scan Table
  | 0, _, _ => none
  | fuel + 1, t, s => do
    let (path, rest) ← key s
    let rest ← expect ['='] rest
    let (d, rest) ← value depth fuel (skipSpaces rest)
    let t ← Table.assign d path t
    match skipSpaces rest with
    | ',' :: rest => inlineMembers depth fuel t rest
    | '\x7d' :: rest => some (t, rest)
    | _ => none

end

/-! ## Statements -/

/-- One line of a text. -/
inductive Statement where
  | declare (path : List String)
  | append (path : List String)
  | assign (path : List String) (d : Document)

def statement : Scan Statement
  | '[' :: '[' :: rest => do
    let (path, rest) ← key rest
    let rest ← expect [']', ']'] rest
    some (.append path, rest)
  | '[' :: rest => do
    let (path, rest) ← key rest
    let rest ← expect [']'] rest
    some (.declare path, rest)
  | s => do
    let (path, rest) ← key s
    let rest ← expect ['='] rest
    let rest := skipSpaces rest
    let (d, rest) ← value depthLimit (2 * rest.length + 1) rest
    some (.assign path d, rest)

/-- Drops the rest of a line, which holds nothing but blanks and a comment. -/
def endLine (s : List Char) : Option (List Char) := do
  match ← skipComment (skipSpaces s) with
  | '\n' :: rest => some rest
  | [] => some []
  | _ => none

def statements : Nat → List Char → Option (List Statement)
  | 0, _ => none
  | fuel + 1, s => do
    match ← skipGaps s with
    | [] => some []
    | s =>
      let (first, rest) ← statement s
      let rest ← endLine rest
      let others ← statements fuel rest
      some (first :: others)

/-- A text half read: the whole table and the path of the last header. -/
structure Draft where
  table : Table
  header : List String

/-- Puts one statement into the draft; there is none when it defines something again. -/
def Draft.add (d : Draft) : Statement → Option Draft
  | .declare path => do
    let t ← d.table.updateAt (Table.declare (path.getLast?.getD "")) path.dropLast
    some ⟨t, path⟩
  | .append path => do
    let t ← d.table.updateAt (Table.append (path.getLast?.getD "")) path.dropLast
    some ⟨t, path⟩
  | .assign path value => do
    let t ← d.table.updateAt (Table.assign value path) d.header
    some ⟨t, d.header⟩

end Toml

/-- The document of a TOML text; a byte order mark in front is passed over. -/
def ofToml? (text : String) : Option Document := do
  let s := match text.toList with
    | '\uFEFF' :: rest => rest
    | s => s
  let s := Toml.unifyLineEnds s
  let parts ← Toml.statements (s.length + 1) s
  let draft ← parts.foldlM Toml.Draft.add ⟨[], []⟩
  some (record (Toml.membersToDocument draft.table))


end LidarSync.Document
