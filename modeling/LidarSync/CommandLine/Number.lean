import LidarSync.Document.Scan

/-!
# Numbers on the command line

Whole numbers are digits after an optional sign. Other numbers are written in digits, with a point
and an exponent if needed, or are infinite or no number at all, in letters of any case.
-/

namespace LidarSync.CommandLine

open Document

/-- Splits a sign off a text and tells whether it is a minus sign. -/
def splitSign : List Char → Bool × List Char
  | '-' :: rest => (true, rest)
  | '+' :: rest => (false, rest)
  | rest => (false, rest)

/-- A whole number up to a limit. A minus sign may stand only before zero, and only where `signed`
lets it. -/
def natural? (limit : Nat) (signed : Bool) (s : String) : Option Nat :=
  let (negative, digits) := splitSign s.toList
  let n := natOfDigits 10 digits
  if digits.isEmpty ∨ !digits.all (·.isDigit) ∨ limit < n then none
  else if negative ∧ (!signed ∨ n ≠ 0) then none
  else some n

/-- A number in digits, without its sign. At least one digit stands before or after the point. -/
def digits? (negative : Bool) (s : List Char) : Option Float := do
  let (whole, rest) := digitRun s
  let (fraction, rest) := match rest with
    | '.' :: rest => digitRun rest
    | rest => ([], rest)
  if whole.isEmpty ∧ fraction.isEmpty then none
  else
    let (exponent, rest) ← exponentPart rest
    if rest.isEmpty then some (floatOf negative whole fraction (exponent.getD 0)) else none

def real? (s : String) : Option Float :=
  let (negative, rest) := splitSign s.toList
  let word := String.ofList (rest.map Char.toLower)
  if word = "inf" ∨ word = "infinity" then some (if negative then -1 / 0 else 1 / 0)
  else if word = "nan" then some (0 / 0)
  else digits? negative rest

end LidarSync.CommandLine
