import LidarSync.Document.Scan

/-!
# Reading JSON

`Document.ofJson?` reads one JSON value with blanks around it and nothing else; it has no answer for
any other text. Integers that no 64-bit word holds, and the integer `-0`, become floats. A number
beyond all doubles, and a string with half of a surrogate pair, are unreadable: they do no harm
where nobody reads them.
-/

namespace LidarSync.Document

def skipBlanks : List Char → List Char
  | c :: rest => if c = ' ' ∨ c = '\n' ∨ c = '\t' ∨ c = '\r' then skipBlanks rest else c :: rest
  | [] => []

def fourHex : Scan Nat
  | a :: b :: c :: d :: rest =>
    if [a, b, c, d].all (hexValue? · |>.isSome) then some (natOfDigits 16 [a, b, c, d], rest)
    else none
  | _ => none

/-- Whether a code unit is the first half of a surrogate pair. -/
def isHighHalf (n : Nat) : Bool := 0xD800 ≤ n && n < 0xDC00

/-- Whether a code unit is the second half of a surrogate pair. -/
def isLowHalf (n : Nat) : Bool := 0xDC00 ≤ n && n < 0xE000

/-- The character after `\u`, written as one code unit or as a surrogate pair; half of a pair is no
character. -/
def unicodeEscape : Scan (Option Char) := fun s => do
  let (unit, rest) ← fourHex s
  if isLowHalf unit then some (none, rest)
  else if isHighHalf unit then
    match rest with
    | '\\' :: 'u' :: next =>
      let (second, next) ← fourHex next
      if isLowHalf second then
        some (some (Char.ofNat (0x10000 + (unit - 0xD800) * 0x400 + (second - 0xDC00))), next)
      else some (none, rest)
    | _ => some (none, rest)
  else some (some (Char.ofNat unit), rest)

def escape : Scan (Option Char)
  | '"' :: rest => some ('"', rest)
  | '\\' :: rest => some ('\\', rest)
  | '/' :: rest => some ('/', rest)
  | 'b' :: rest => some ('\x08', rest)
  | 'f' :: rest => some ('\x0c', rest)
  | 'n' :: rest => some ('\n', rest)
  | 'r' :: rest => some ('\r', rest)
  | 't' :: rest => some ('\t', rest)
  | 'u' :: rest => unicodeEscape rest
  | _ => none

/-- The characters of a string up to its closing quote, put before those already `read`, the latest
first; a string with half of a surrogate pair has none. Every character takes one unit of the first
argument. -/
def stringBody : Nat → Option (List Char) → Scan (Option String)
  | 0, _, _ => none
  | _ + 1, read, '"' :: rest => some (read.map (String.ofList ·.reverse), rest)
  | fuel + 1, read, '\\' :: rest =>
    match escape rest with
    | some (c, rest) => stringBody fuel (do (← c) :: (← read)) rest
    | none => none
  | fuel + 1, read, c :: rest =>
    if c.toNat < 32 then none else stringBody fuel (read.map (c :: ·)) rest
  | _ + 1, _, [] => none

/-- The digits after a decimal point, if there is one. -/
def fractionPart : Scan (Option (List Char))
  | '.' :: rest =>
    let (digits, rest) := digitRun rest
    if digits.isEmpty then none else some (some digits, rest)
  | rest => some (none, rest)

def floatWithin (x : Float) : Document := if x.isInf then unreadable else float x

def integerOf (negative : Bool) (digits : List Char) : Document :=
  let n := natOfDigits 10 digits
  if negative then
    if 0 < n ∧ n ≤ wordLimit / 2 then int (-n) else floatWithin (floatOf true digits [] 0)
  else if n < wordLimit then int n
  else floatWithin (floatOf false digits [] 0)

/-- A number; zeros in front of other digits are refused. -/
def number : Scan Document := fun s => do
  let (negative, s) := match s with
    | '-' :: rest => (true, rest)
    | s => (false, s)
  let (whole, rest) := digitRun s
  if whole.isEmpty ∨ (whole.head? = some '0' ∧ 1 < whole.length) then none
  else
    let (fraction, rest) ← fractionPart rest
    let (exponent, rest) ← exponentPart rest
    match fraction, exponent with
    | none, none => some (integerOf negative whole, rest)
    | fraction, exponent =>
      some (floatWithin (floatOf negative whole (fraction.getD []) (exponent.getD 0)), rest)

def quotedString : Scan (Option String)
  | '"' :: rest => stringBody (rest.length + 1) (some []) rest
  | _ => none

/-- A record, unless one of its names cannot be read. -/
def recordOf (members : List (Option String × Document)) : Document :=
  match members.mapM fun (name, d) => name.map (·, d) with
  | some members => record members
  | none => unreadable

mutual

/-- A value in front of a text. Every value and every member of a list or record takes one unit of
the first argument. -/
def value : Nat → Scan Document
  | 0, _ => none
  | fuel + 1, s =>
    match s with
    | 'n' :: rest => (expect "ull".toList rest).map (null, ·)
    | 't' :: rest => (expect "rue".toList rest).map (bool true, ·)
    | 'f' :: rest => (expect "alse".toList rest).map (bool false, ·)
    | '"' :: rest =>
      (stringBody (rest.length + 1) (some []) rest).map fun (t, rest) =>
        (t.elim unreadable text, rest)
    | '[' :: rest =>
      match skipBlanks rest with
      | ']' :: rest => some (list [], rest)
      | rest => (items fuel rest).map fun (ds, rest) => (list ds, rest)
    | '\x7b' :: rest =>
      match skipBlanks rest with
      | '\x7d' :: rest => some (record [], rest)
      | rest => (members fuel rest).map fun (ms, rest) => (recordOf ms, rest)
    | s => number s

/-- One or more values separated by commas, through the closing bracket. -/
def items : Nat → Scan (List Document)
  | 0, _ => none
  | fuel + 1, s => do
    let (d, rest) ← value fuel s
    match skipBlanks rest with
    | ',' :: rest =>
      let (ds, rest) ← items fuel (skipBlanks rest)
      some (d :: ds, rest)
    | ']' :: rest => some ([d], rest)
    | _ => none

/-- One or more members separated by commas, through the closing brace. -/
def members : Nat → Scan (List (Option String × Document))
  | 0, _ => none
  | fuel + 1, s => do
    let (name, rest) ← quotedString s
    match skipBlanks rest with
    | ':' :: rest =>
      let (d, rest) ← value fuel (skipBlanks rest)
      match skipBlanks rest with
      | ',' :: rest =>
        let (ms, rest) ← members fuel (skipBlanks rest)
        some ((name, d) :: ms, rest)
      | '\x7d' :: rest => some ([(name, d)], rest)
      | _ => none
    | _ => none

end

def ofJson? (s : String) : Option Document :=
  let s := skipBlanks s.toList
  match value (2 * s.length + 1) s with
  | some (d, rest) => if (skipBlanks rest).isEmpty then some d else none
  | none => none

end LidarSync.Document
