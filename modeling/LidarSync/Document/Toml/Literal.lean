import LidarSync.Document.Scan

/-!
# Numbers and dates in TOML

The literals of TOML that are written without quotes or brackets, each as a function on the whole
literal.
-/

namespace LidarSync.Document.Toml

/-- The digits of a number without the underscores between them; every underscore must stand
between two digits. The first argument says whether a digit came before. -/
def digitsFrom (isDigit : Char → Bool) : Bool → List Char → Option (List Char)
  | afterDigit, [] => if afterDigit then some [] else none
  | afterDigit, c :: rest =>
    if isDigit c then (digitsFrom isDigit true rest).map (c :: ·)
    else if c = '_' ∧ afterDigit then digitsFrom isDigit false rest
    else none

def decimalDigits (s : List Char) : Option (List Char) := digitsFrom (·.isDigit) false s

/-- Decimal digits in which no zero stands before another digit. -/
def wholeDigits (s : List Char) : Option (List Char) :=
  match decimalDigits s with
  | some ds => if ds.head? = some '0' ∧ 1 < ds.length then none else some ds
  | none => none

def isDigitIn (base : Nat) (c : Char) : Bool :=
  match hexValue? c with
  | some n => n < base
  | none => false

def splitSign : List Char → Bool × List Char
  | '-' :: rest => (true, rest)
  | '+' :: rest => (false, rest)
  | s => (false, s)

/-- An integer that a 64-bit word holds, signed or not. -/
def word64? (n : Int) : Option Document :=
  if -(wordLimit / 2 : Nat) ≤ n ∧ n < wordLimit then some (.int n) else none

def basedInteger? (base : Nat) (s : List Char) : Option Document :=
  match digitsFrom (isDigitIn base) false s with
  | some ds => word64? (natOfDigits base ds)
  | none => none

def integer? : List Char → Option Document
  | '0' :: 'x' :: rest => basedInteger? 16 rest
  | '0' :: 'o' :: rest => basedInteger? 8 rest
  | '0' :: 'b' :: rest => basedInteger? 2 rest
  | s =>
    let (negative, digits) := splitSign s
    match wholeDigits digits with
    | some ds => word64? (if negative then -natOfDigits 10 ds else natOfDigits 10 ds)
    | none => none

def exponent? (s : List Char) : Option Int :=
  let (negative, digits) := splitSign s
  (decimalDigits digits).map fun ds => if negative then -natOfDigits 10 ds else natOfDigits 10 ds

/-- A float literal with a point, an exponent, or both. -/
def decimalFloat? (negative : Bool) (s : List Char) : Option Document := do
  let isMark := fun c : Char => c == 'e' || c == 'E'
  let mantissa := s.takeWhile (!isMark ·)
  let exponent ← match s.dropWhile (!isMark ·) with
    | [] => some 0
    | _ :: rest => exponent? rest
  let whole ← wholeDigits (mantissa.takeWhile (· ≠ '.'))
  let fraction ← match mantissa.dropWhile (· ≠ '.') with
    | [] => some []
    | _ :: rest => decimalDigits rest
  let x := floatOf negative whole fraction exponent
  if x.isInf then none else some (.float x)

def float? (s : List Char) : Option Document :=
  match splitSign s with
  | (negative, ['i', 'n', 'f']) => some (.float (if negative then -1 / 0 else 1 / 0))
  | (_, ['n', 'a', 'n']) => some (.float (0 / 0))
  | (negative, digits) => decimalFloat? negative digits

/-! ## Dates and times -/

def fixedDigits (n : Nat) : Scan Nat := fun s =>
  let ds := s.take n
  if ds.length = n ∧ ds.all (·.isDigit) then some (natOfDigits 10 ds, s.drop n) else none

def daysIn (year month : Nat) : Nat :=
  if month = 2 then
    if year % 4 = 0 ∧ (year % 100 ≠ 0 ∨ year % 400 = 0) then 29 else 28
  else if month ∈ [4, 6, 9, 11] then 30
  else 31

def datePart : Scan String := fun s => do
  let (year, rest) ← fixedDigits 4 s
  let rest ← expect ['-'] rest
  let (month, rest) ← fixedDigits 2 rest
  let rest ← expect ['-'] rest
  let (day, rest) ← fixedDigits 2 rest
  if 1 ≤ month ∧ month ≤ 12 ∧ 1 ≤ day ∧ day ≤ daysIn year month then
    some (String.ofList (s.take 10), rest)
  else none

/-- The digits of a fraction of a second: nine at most, without zeros at the end. -/
def fractionText (digits : List Char) : String :=
  let kept := ((digits.take 9).reverse.dropWhile (· = '0')).reverse
  if kept.isEmpty then "" else "." ++ String.ofList kept

def timePart : Scan String := fun s => do
  let (hour, rest) ← fixedDigits 2 s
  let rest ← expect [':'] rest
  let (minute, rest) ← fixedDigits 2 rest
  let rest ← expect [':'] rest
  let (second, rest) ← fixedDigits 2 rest
  if 24 ≤ hour ∨ 60 ≤ minute ∨ 61 ≤ second then none
  else
    let whole := String.ofList (s.take 8)
    match rest with
    | '.' :: rest =>
      let (digits, rest) := digitRun rest
      if digits.isEmpty then none else some (whole ++ fractionText digits, rest)
    | rest => some (whole, rest)

/-- A distance from universal time in front, as text; none at all is fine too. -/
def zonePart : Scan String := fun s =>
  match s with
  | 'Z' :: rest => some ("Z", rest)
  | 'z' :: rest => some ("Z", rest)
  | c :: rest =>
    if c = '+' ∨ c = '-' then do
      let (hour, after) ← fixedDigits 2 rest
      let after ← expect [':'] after
      let (minute, after) ← fixedDigits 2 after
      if hour < 24 ∧ minute < 60 then
        some (String.ofList (c :: rest.take 5), after)
      else none
    else some ("", c :: rest)
  | [] => some ("", [])

/-- The name of the only member of the record that a date reads as. -/
def dateName : String := "$__toml_private_datetime"

/-- A date, a time, or both; the text is a record with one member. -/
def moment : Scan Document := fun s =>
  let asRecord := fun t : String => Document.record [(dateName, .text t)]
  match datePart s with
  | some (date, rest) =>
    match rest with
    | c :: after =>
      if c = 'T' ∨ c = 't' ∨ (c = ' ' ∧ (after.head?.any (·.isDigit))) then do
        let (time, after) ← timePart after
        let (zone, after) ← zonePart after
        some (asRecord (date ++ "T" ++ time ++ zone), after)
      else some (asRecord date, rest)
    | [] => some (asRecord date, rest)
  | none => (timePart s).map fun (time, rest) => (asRecord time, rest)

/-- Whether a text starts like a date or a time. -/
def looksLikeMoment (s : List Char) : Bool :=
  let digits := s.takeWhile (·.isDigit)
  match s.dropWhile (·.isDigit) with
  | '-' :: _ => digits.length = 4
  | ':' :: _ => digits.length = 2
  | _ => false

/-- Whether a character may stand in a number or a word. -/
def isLiteralChar (c : Char) : Bool :=
  c.isAlphanum || c == '_' || c == '+' || c == '-' || c == '.'

/-- A literal in front: a moment, a truth value or a number. -/
def literal : Scan Document := fun s =>
  if looksLikeMoment s then moment s
  else
    let word := s.takeWhile isLiteralChar
    let rest := s.dropWhile isLiteralChar
    let d : Option Document := match word with
      | ['t', 'r', 'u', 'e'] => some (.bool true)
      | ['f', 'a', 'l', 's', 'e'] => some (.bool false)
      | word => (integer? word).or (float? word)
    d.map (·, rest)

end LidarSync.Document.Toml
