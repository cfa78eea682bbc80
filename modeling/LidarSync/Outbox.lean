/-!
# Bounded queues

A queue between a sender and a receiver that holds a limited number of elements. An element that
finds it full or without a receiver is turned away.
-/

namespace LidarSync

/-- How sending to a queue went. -/
inductive Sent where
  | queued
  | full
  | closed
deriving DecidableEq, Repr

/-- A bounded queue, the oldest element first. -/
structure Outbox (α : Type) where
  capacity : Nat
  waiting : List α := []
  closed : Bool := false

namespace Outbox

variable {α : Type}

/-- A queue with nothing in it. A capacity of zero counts as one. -/
def ofCapacity (n : Nat) : Outbox α := { capacity := max n 1 }

/-- Whether the queue holds as many elements as it can. -/
def isFull (q : Outbox α) : Bool := q.capacity ≤ q.waiting.length

/-- Sends an element without waiting for room. -/
def send (q : Outbox α) (a : α) : Sent × Outbox α :=
  if q.closed then (.closed, q)
  else if q.isFull then (.full, q)
  else (.queued, { q with waiting := q.waiting ++ [a] })

def receive (q : Outbox α) : Option α × Outbox α :=
  (q.waiting.head?, { q with waiting := q.waiting.tail })

/-- The receiver goes away, and with it what still waits. -/
def drop (q : Outbox α) : Outbox α := { q with waiting := [], closed := true }

end Outbox

end LidarSync
