import LidarSync.Outbox

/-!
# What becomes of an element of a queue

An element that is sent to a queue with a receiver is queued or turned away (`Outbox.send_of_open`),
and receiving splits a queue (`Outbox.receive_split`). Neither changes whether there is a receiver, or
how many elements there is room for.
-/

namespace LidarSync.Outbox

variable {α : Type} {q : Outbox α}

/-- What becomes of an element that is sent to a queue with a receiver. -/
theorem send_of_open (h : q.closed = false) (a : α) :
    (q.waiting.length < q.capacity ∧
      q.send a = (.queued, { q with waiting := q.waiting ++ [a] })) ∨
    (q.capacity ≤ q.waiting.length ∧ q.send a = (.full, q)) := by
  unfold send isFull
  rw [h]
  by_cases hroom : q.waiting.length < q.capacity
  · simp [hroom]
  · simp [hroom, Nat.le_of_not_lt hroom]

theorem receive_split (q : Outbox α) : q.receive.1.toList ++ q.receive.2.waiting = q.waiting := by
  unfold receive
  cases q.waiting <;> rfl

theorem send_frame (q : Outbox α) (a : α) : (q.send a).2.closed = q.closed ∧
    (q.send a).2.capacity = q.capacity ∧ q.waiting.length ≤ (q.send a).2.waiting.length := by
  cases hclosed : q.closed with
  | true =>
    unfold send
    rw [hclosed]
    exact ⟨hclosed, rfl, Nat.le_refl _⟩
  | false =>
    rcases send_of_open hclosed a with ⟨-, hsend⟩ | ⟨-, hsend⟩
    · rw [hsend]
      exact ⟨hclosed, rfl, by simp⟩
    · rw [hsend]
      exact ⟨hclosed, rfl, Nat.le_refl _⟩

end LidarSync.Outbox
