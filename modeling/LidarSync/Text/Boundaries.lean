/-!
# Sets of code points as boundaries

A set of code points that comes in runs is stored as the ascending list of the places where
membership changes: the first run starts at the first boundary and stops before the second. A code
point is inside when an odd number of boundaries is not above it.
-/

namespace LidarSync.Text

/-- How many of the ascending `boundaries` in the window `[low, low + width)` are at most `code`,
counting all below `low`. -/
def boundariesUpTo (boundaries : Array Nat) (code low : Nat) : Nat → Nat
  | 0 => low
  | width + 1 =>
    let half := (width + 1) / 2
    if h : low + half < boundaries.size then
      if boundaries[low + half] ≤ code then
        boundariesUpTo boundaries code (low + half + 1) (width - half)
      else boundariesUpTo boundaries code low half
    else low
termination_by width => width
decreasing_by all_goals omega

/-- Whether a code point lies in one of the runs. -/
def insideRuns (boundaries : Array Nat) (code : Nat) : Bool :=
  boundariesUpTo boundaries code 0 boundaries.size % 2 == 1

end LidarSync.Text
