import LidarSync.Decimal.Shortest
import LidarSync.Decimal.Rounded

/-!
# Texts of numbers

A `Layout` holds the decisions that turn digits into text: which numbers are written out
positionally, whether an integral one keeps `.0`, how an exponent and the non-finite values look.
The library writes three kinds of number text, `Layout.plain` in messages and reports,
`Layout.inspected` where a value is shown for inspection, and `Layout.document` in JSON.
-/

namespace LidarSync.Decimal

/-- The decisions that make text out of digits. -/
structure Layout where
  /-- Whether a number whose leading digit has this exponent is written without an exponent. -/
  positional : Int → Bool
  /-- Whether an integral number written positionally ends in `.0`. -/
  keepPoint : Bool
  /-- What stands before an exponent that is not negative. -/
  exponentSign : String
  /-- Which of two equally near candidates is written. -/
  tie : Tie
  nan : String
  infinity : String
  negativeInfinity : String

namespace Layout

/-- Numbers in messages and reports: never an exponent, and no point in an integral number. -/
def plain : Layout where
  positional _ := true
  keepPoint := false
  exponentSign := ""
  tie := .up
  nan := "NaN"
  infinity := "inf"
  negativeInfinity := "-inf"

/-- Numbers shown for inspection: integral numbers keep a point, and numbers from `1e16` on or
below `1e-4` have an exponent. -/
def inspected : Layout where
  positional x := -4 ≤ x ∧ x < 16
  keepPoint := true
  exponentSign := ""
  tie := .up
  nan := "NaN"
  infinity := "inf"
  negativeInfinity := "-inf"

/-- Numbers in JSON: integral numbers keep a point, numbers from `1e16` on or below `1e-5` have a
signed exponent, and what is not finite is `null`. -/
def document : Layout where
  positional x := -5 ≤ x ∧ x < 16
  keepPoint := true
  exponentSign := "+"
  tie := .toEven
  nan := "null"
  infinity := "null"
  negativeInfinity := "null"

end Layout

def zeros (n : Nat) : String := String.ofList (List.replicate n '0')

/-- Writes `coefficient · 10 ^ -places` with exactly `places` digits after the point, and no point
for none. -/
def pointed (coefficient places : Nat) : String :=
  if places = 0 then toString coefficient
  else
    let whole := coefficient / tenTo places
    let part := toString (coefficient % tenTo places)
    s!"{whole}.{zeros (places - part.length)}{part}"

def positionalText (l : Layout) (d : Decimal) : String :=
  if 0 ≤ d.exponent then
    toString (d.coefficient * tenTo d.exponent.toNat) ++ (if l.keepPoint then ".0" else "")
  else pointed d.coefficient (-d.exponent).toNat

/-- Writes a decimal with one digit before the point and an exponent. -/
def scientificText (l : Layout) (d : Decimal) : String :=
  let x := d.leading
  let mantissa := pointed d.coefficient (digitCount d.coefficient - 1)
  let exponent := if x < 0 then toString x else l.exponentSign ++ toString x
  mantissa ++ "e" ++ exponent

def text (l : Layout) (d : Decimal) : String :=
  if l.positional (if d.coefficient = 0 then 0 else d.leading) then positionalText l d
  else scientificText l d

/-- Puts a minus sign before the text of a negative number. -/
def signed (negative : Bool) (body : String) : String :=
  if negative then "-" ++ body else body

def Layout.word (l : Layout) : Word → String
  | .nan => l.nan
  | .infinite negative => if negative then l.negativeInfinity else l.infinity
  | .finite negative v => signed negative (text l (v.shortest l.tie))

def Layout.double (l : Layout) (x : Float) : String := l.word (Word.ofDouble x)

/-- A double with a fixed number of places, its exact value rounded half to even. -/
def fixed (places : Nat) (x : Float) : String :=
  match Word.ofDouble x with
  | .nan => "NaN"
  | .infinite negative => if negative then "-inf" else "inf"
  | .finite negative v => signed negative (pointed (v.roundTo (-places)).coefficient places)

end LidarSync.Decimal
