import LidarSync.Decimal.Basic
import LidarSync.Document.Basic

/-!
# Scanning

What the readers of all document languages share: taking a value off the front of a text, digits
and the numbers they write.
-/

namespace LidarSync.Document

/-- A reader takes a value off the front of a text and leaves the rest. -/
abbrev Scan (α : Type) := List Char → Option (α × List Char)

def expect : List Char → List Char → Option (List Char)
  | [], rest => some rest
  | c :: cs, d :: rest => if c = d then expect cs rest else none
  | _ :: _, [] => none

def wordLimit : Nat := 0x10000000000000000

def hexValue? (c : Char) : Option Nat :=
  if '0' ≤ c ∧ c ≤ '9' then some (c.toNat - '0'.toNat)
  else if 'a' ≤ c ∧ c ≤ 'f' then some (c.toNat - 'a'.toNat + 10)
  else if 'A' ≤ c ∧ c ≤ 'F' then some (c.toNat - 'A'.toNat + 10)
  else none

/-- The number that a list of digits writes in a base. -/
def natOfDigits (base : Nat) (digits : List Char) : Nat :=
  digits.foldl (fun n c => n * base + (hexValue? c).getD 0) 0

def digitRun (s : List Char) : List Char × List Char :=
  (s.takeWhile (·.isDigit), s.dropWhile (·.isDigit))

def exponentPart : Scan (Option Int)
  | c :: rest =>
    if c = 'e' ∨ c = 'E' then
      let (negative, rest) := match rest with
        | '-' :: rest => (true, rest)
        | '+' :: rest => (false, rest)
        | rest => (false, rest)
      let (digits, rest) := digitRun rest
      if digits.isEmpty then none
      else
        let n := natOfDigits 10 digits
        some (some (if negative then -n else n), rest)
    else some (none, c :: rest)
  | [] => some (none, [])

/-- The float with a sign, digits before and after the point, and an exponent. -/
def floatOf (negative : Bool) (whole fraction : List Char) (exponent : Int) : Float :=
  let d : Decimal := ⟨natOfDigits 10 (whole ++ fraction), exponent - fraction.length⟩
  if negative then -d.toDouble else d.toDouble

end LidarSync.Document
