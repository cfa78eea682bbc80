/-!
# Bisection

A search for the place in front of which the elements of a sequence pass a test, which looks at one
element after the other and goes on behind or in front of it. Where the elements that pass do not all
stand in front, what is found depends on which elements are looked at; so a way of searching is a
value of its own.
-/

namespace LidarSync

/-- A way to look for the place in front of which all elements pass a test, from `low` to `high`:
which element to look at next, and how to go on with either outcome. -/
inductive Bisection : Nat → Nat → Type where
  | found (place : Nat) : Bisection place place
  | probe {low high : Nat} (middle : Nat) (above : Bisection (middle + 1) high)
      (below : Bisection low middle) : Bisection low high

namespace Bisection

/-- The place that is found. -/
def find (p : Nat → Bool) : {low high : Nat} → Bisection low high → Nat
  | _, _, .found place => place
  | _, _, .probe middle above below => if p middle then above.find p else below.find p

/-- Looks at the element in the middle of those that are left, of which there are at most `size`. -/
def halve : (size low high : Nat) → low ≤ high → high ≤ low + size → Bisection low high
  | 0, low, _, hle, hsize => Nat.le_antisymm hle hsize ▸ .found low
  | size + 1, low, high, hle, hsize =>
    if h : low = high then h ▸ .found low
    else
      .probe ((low + high) / 2) (halve size ((low + high) / 2 + 1) high (by omega) (by omega))
        (halve size low ((low + high) / 2) (by omega) (by omega))

end Bisection

end LidarSync
