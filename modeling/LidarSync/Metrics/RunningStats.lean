import LidarSync.Decimal.Layout
import LidarSync.Scalar

/-!
# Running statistics

Count, mean, variance and extremes of a stream of numbers, updated one number at a time without
keeping them. What is not a finite number is passed over.
-/

namespace LidarSync

/-- The statistics of the numbers so far. `m2` is the sum of the squared deviations from the
mean. -/
structure RunningStats (α : Type) where
  count : Nat
  mean : α
  m2 : α
  min : α
  max : α

def finite? (x : Float) : Option Float := if x.isFinite then some x else none

namespace RunningStats

variable {α : Type} [Scalar α]

def empty : RunningStats α := ⟨0, 0, 0, 0, 0⟩

def push (s : RunningStats α) (x : α) : RunningStats α :=
  let count := s.count + 1
  let delta := x - s.mean
  let mean := s.mean + delta / Scalar.ofNat count
  { count
    mean
    m2 := s.m2 + delta * (x - mean)
    min := if s.count = 0 then x else Scalar.least s.min x
    max := if s.count = 0 then x else Scalar.greatest s.max x }

/-- Adds a reading, which may be no finite number and is passed over then. -/
def observe (s : RunningStats α) : Option α → RunningStats α
  | some x => s.push x
  | none => s

def ofReadings (xs : List (Option α)) : RunningStats α := xs.foldl observe empty

def variance (s : RunningStats α) : α :=
  if s.count ≤ 1 then 0 else s.m2 / Scalar.ofNat (s.count - 1)

def deviation (s : RunningStats α) : α := Scalar.sqrt s.variance

end RunningStats

/-- Statistics as they are reported. -/
structure StatsSummary where
  count : Nat
  min : Float
  max : Float
  mean : Float
  deviation : Float

def RunningStats.summary (s : RunningStats Float) : StatsSummary where
  count := s.count
  min := s.min
  max := s.max
  mean := s.mean
  deviation := s.deviation

def StatsSummary.text (s : StatsSummary) : String :=
  if s.count = 0 then "N/A"
  else
    let places := Decimal.fixed 3
    s!"mean {places s.mean} ± {places s.deviation}, "
      ++ s!"range [{places s.min}, {places s.max}], n={s.count}"

end LidarSync
