import LidarSync.Proofs.Round.Moves
import Mathlib.Data.List.Induction

/-!
# The turns of a run

A run leaves behind what became of its rounds and when, the latest turn first. `armings` reads the
armings of the round in progress off such a list, and `dueIn` the deadline that the latest of them
set; `Move.dueIn_eq` says that the deadline of the engine is always that one.
-/

namespace LidarSync

/-- What became of rounds at which instants, the latest first. -/
abbrev Turns := List (Instant × Turn)

/-- The armings of the round in progress, the latest first: when each was, and the deadline that it
set. -/
def armings : Turns → List (Instant × Instant)
  | [] => []
  | (_, .kept) :: before => armings before
  | (now, .armed due) :: before => (now, due) :: armings before
  | (_, .closed _) :: _ => []

/-- The deadline that the latest arming of the round in progress set. -/
def dueIn (turns : Turns) : Deadline := (armings turns).head?.map Prod.snd

/-- What holds of every close and of the turns before it, also when there is one turn more. -/
theorem forall_closed_cons {P : Turns → Instant → ClosedRound → Prop} {turns : Turns}
    {now : Instant} {turn : Turn}
    (h : ∀ newer older t r, turns = newer ++ (t, .closed r) :: older → P older t r)
    (hturn : ∀ r, turn = .closed r → P turns now r) :
    ∀ newer older t r, (now, turn) :: turns = newer ++ (t, .closed r) :: older → P older t r := by
  intro newer older t r hsplit
  cases newer with
  | nil =>
    obtain ⟨hhead, rfl⟩ := List.cons.inj hsplit
    obtain ⟨rfl, rfl⟩ := Prod.mk.inj hhead
    exact hturn r rfl
  | cons q rest => exact h rest older t r (List.cons.inj hsplit).2

section Moves

variable {now : Instant} {c c' : Collector} {d d' : Deadline} {turn : Turn} {turns : Turns}

theorem Move.dueIn_eq (h : Move now c d turn c' d') (hd : d = dueIn turns) (at' : Instant) :
    d' = dueIn ((at', turn) :: turns) := by
  cases h with
  | idle => exact hd
  | taken _ => exact hd
  | armed _ => rfl
  | completed _ _ => rfl
  | expired _ _ _ => rfl

/-- After a deadline was dropped there is none until the next arming. -/
theorem Move.dueIn_eq_or_none (h : Move now c d turn c' d') (hd : d = none) (at' : Instant) :
    d' = dueIn ((at', turn) :: turns) ∨ d' = none := by
  cases h with
  | idle => exact Or.inr hd
  | taken _ => exact Or.inr hd
  | armed _ => exact Or.inl rfl
  | completed _ _ => exact Or.inl rfl
  | expired _ _ _ => exact Or.inl rfl

/-- The deadline is the one that is posted, and it changes only where one is. -/
theorem Move.post_eq (h : Move now c d turn c' d') : d' = turn.post.getD d := by
  cases h <;> rfl

theorem Move.le_of_armed {due : Instant} (h : Move now c d (.armed due) c' d') : now ≤ due := by
  cases h with
  | armed _ => exact Nat.le_add_right _ _

/-- Only a deadline that has come closes a round as timed out. -/
theorem Move.due_of_timeout {r : ClosedRound} (h : Move now c d (.closed r) c' d')
    (hr : r.trigger = .timeout) : ∃ due ≤ now, d = some due := by
  cases h with
  | completed _ closes =>
    rw [closes.trigger_eq] at hr
    exact absurd hr nofun
  | expired armed late _ => exact ⟨_, late, armed⟩

end Moves

/-! ## Runs of an engine -/

/-- An engine in the course of a run, and the turns of its rounds. -/
structure Course where
  engine : Engine
  turns : Turns := []

namespace Engine

/-- What happens next in a run. -/
def follow (k : Course) (x : Instant × Input) : Course :=
  let taken := k.engine.step x.1 x.2
  ⟨taken.engine, (x.1, taken.turn) :: k.turns⟩

/-- The course that an engine takes when things happen to it at instants. -/
def run (e : Engine) (xs : List (Instant × Input)) : Course := xs.foldl follow ⟨e, []⟩

theorem run_concat (e : Engine) (xs : List (Instant × Input)) (x : Instant × Input) :
    e.run (xs ++ [x]) = follow (e.run xs) x := by
  unfold run
  rw [List.foldl_append]
  rfl

end Engine

end LidarSync
