/-!
# Velocity reports

What the vehicle says about its own motion at one instant, over any kind of numbers.
-/

namespace LidarSync

/-- The planar velocity of the vehicle at an instant. -/
structure Velocity (α : Type) where
  stamp : α
  forward : α
  lateral : α
  /-- The rate of turning to the left. -/
  turnRate : α
deriving DecidableEq, Repr

end LidarSync
