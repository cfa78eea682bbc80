import LidarSync.Geometry.FrameGraph
import LidarSync.Proofs.Keyed
import Mathlib.Order.Lattice.Nat

/-!
# Ways between frames

A transform can be passed in both directions: from the parent to the child with its pose, and back with
the inverse (`Hop`). A `Way` is a sequence of hops, with the poses on it; their product takes the points
of the frame at its end to the one at its start (`Pose.along`). `hopsTo` is the length of the shortest
ways to a frame. In the graph that is built from a list of transforms, the neighbours of a frame are
those one hop away, in the order of the list (`FrameGraph.neighbours_ofEdges`).
-/

namespace LidarSync

variable {α : Type}

namespace FrameGraph

/-! ## Entries -/

theorem lookup_addEdge (frame next : String) (pose : Pose α)
    (edges : List (String × List (String × Pose α))) (f : String) :
    (addEdge frame next pose edges).lookup f
      = if f = frame then some ((edges.lookup f).getD [] ++ [(next, pose)]) else edges.lookup f := by
  induction edges with
  | nil => exact Keyed.get?_cons frame [(next, pose)] [] f
  | cons entry rest ih =>
    obtain ⟨n, ns⟩ := entry
    have hentry (ms : List (String × Pose α)) (l : List (String × List (String × Pose α))) :
        ((n, ms) :: l).lookup f = if f = n then some ms else l.lookup f := Keyed.get?_cons n ms l f
    unfold addEdge
    split
    · next hn =>
      subst hn
      rw [hentry, hentry]
      by_cases hf : f = n
      · simp [hf]
      · simp [hf]
    · next hn =>
      rw [hentry, hentry, ih]
      by_cases hf : f = n
      · subst hf
        simp [hn]
      · simp [hf]

theorem neighbours_addEdge (frame next : String) (pose : Pose α) (g : FrameGraph α) (f : String) :
    neighbours ⟨addEdge frame next pose g.edges⟩ f
      = g.neighbours f ++ if frame = f then [(next, pose)] else [] := by
  unfold neighbours
  dsimp only
  rw [lookup_addEdge]
  by_cases hf : f = frame
  · rw [if_pos hf, if_pos hf.symm, Option.getD_some]
  · rw [if_neg hf, if_neg (Ne.symm hf), List.append_nil]

end FrameGraph

/-! ## Hops and ways -/

/-- A transform, from a child frame to a parent frame. -/
abbrev Edge (α : Type) := String × String × Pose α

variable [Scalar α]

/-- A step from a frame to one that a transform connects with it, and the pose that takes points of the
second frame to the first. -/
inductive Hop (es : List (Edge α)) : String → String → Pose α → Prop where
  | down {parent child : String} {pose : Pose α} (listed : (parent, child, pose) ∈ es) :
      Hop es parent child pose
  | up {parent child : String} {pose : Pose α} (listed : (parent, child, pose) ∈ es) :
      Hop es child parent pose.inverse

/-- A way from a frame to another one, hop by hop, with the poses on it. -/
inductive Way (es : List (Edge α)) (start : String) : List (Pose α) → String → Prop where
  | here : Way es start [] start
  | on {poses : List (Pose α)} {frame next : String} {pose : Pose α} (way : Way es start poses frame)
      (hop : Hop es frame next pose) : Way es start (poses ++ [pose]) next

/-- What the poses on a way come to, from its start on. -/
def Pose.along (poses : List (Pose α)) : Pose α := poses.foldl (· * ·) Pose.identity

@[simp] theorem Pose.along_nil : Pose.along ([] : List (Pose α)) = Pose.identity := rfl

@[simp] theorem Pose.along_concat (poses : List (Pose α)) (pose : Pose α) :
    Pose.along (poses ++ [pose]) = Pose.along poses * pose := by
  unfold Pose.along
  rw [List.foldl_append, List.foldl_cons, List.foldl_nil]

/-- How many hops it takes at least from a frame to another one. -/
noncomputable def hopsTo (es : List (Edge α)) (start frame : String) : Nat :=
  sInf {n | ∃ poses, Way es start poses frame ∧ poses.length = n}

section Ways

variable {es : List (Edge α)} {start frame next : String} {pose : Pose α} {poses : List (Pose α)}

theorem Way.hopsTo_le (way : Way es start poses frame) : hopsTo es start frame ≤ poses.length :=
  Nat.sInf_le ⟨poses, way, rfl⟩

theorem Way.exists_shortest (way : Way es start poses frame) :
    ∃ qs, Way es start qs frame ∧ qs.length = hopsTo es start frame :=
  Nat.sInf_mem (s := {n | ∃ poses, Way es start poses frame ∧ poses.length = n})
    ⟨poses.length, poses, way, rfl⟩

theorem hopsTo_self (es : List (Edge α)) (start : String) : hopsTo es start start = 0 :=
  Nat.le_zero.1 (Way.hopsTo_le .here)

theorem Hop.exists_back (hop : Hop es frame next pose) : ∃ back, Hop es next frame back := by
  cases hop with
  | down listed => exact ⟨_, .up listed⟩
  | up listed => exact ⟨_, .down listed⟩

end Ways

namespace FrameGraph

/-! ## Neighbours -/

/-- The hops that a transform allows from a frame. -/
def hopsFrom (frame : String) : Edge α → List (String × Pose α)
  | (parent, child, pose) =>
    (if parent = frame then [(child, pose)] else []) ++
      (if child = frame then [(parent, pose.inverse)] else [])

/-- The neighbours of a frame are those one hop away, in the order in which the transforms are listed. -/
theorem neighbours_ofEdges (es : List (Edge α)) (frame : String) :
    (ofEdges es).neighbours frame = es.flatMap (hopsFrom frame) := by
  unfold ofEdges
  induction es using List.reverseRecOn with
  | nil => rfl
  | append_singleton es e ih =>
    obtain ⟨parent, child, pose⟩ := e
    rw [List.foldl_concat, List.flatMap_append, List.flatMap_singleton, ← ih]
    generalize es.foldl (fun g (parent, child, pose) => g.connect parent child pose) empty = g
    have hfirst := neighbours_addEdge parent child pose g frame
    have hsecond := neighbours_addEdge child parent pose.inverse
      ⟨addEdge parent child pose g.edges⟩ frame
    exact hsecond.trans (by rw [hfirst, List.append_assoc]; rfl)

theorem mem_neighbours_iff {es : List (Edge α)} {frame next : String} {pose : Pose α} :
    (next, pose) ∈ (ofEdges es).neighbours frame ↔ Hop es frame next pose := by
  rw [neighbours_ofEdges, List.mem_flatMap]
  constructor
  · rintro ⟨⟨parent, child, p⟩, hlisted, hmem⟩
    simp only [hopsFrom, List.mem_append, List.mem_ite_nil_right, List.mem_singleton,
      Prod.mk.injEq] at hmem
    rcases hmem with ⟨rfl, rfl, rfl⟩ | ⟨rfl, rfl, rfl⟩
    · exact .down hlisted
    · exact .up hlisted
  · rintro (hlisted | hlisted)
    · exact ⟨_, hlisted, by simp [hopsFrom]⟩
    · exact ⟨_, hlisted, by simp [hopsFrom]⟩

/-- A frame from which there is a hop has an entry of its own. -/
theorem mem_edges_of_hop {es : List (Edge α)} {frame next : String} {pose : Pose α}
    (hop : Hop es frame next pose) : frame ∈ (ofEdges es).edges.map Prod.fst := by
  have hmem := mem_neighbours_iff.2 hop
  refine Keyed.mem_keys_iff.2 ?_
  unfold neighbours at hmem
  change ((ofEdges es).edges.lookup frame).isSome
  cases hentry : (ofEdges es).edges.lookup frame with
  | none =>
    rw [hentry] at hmem
    exact absurd hmem List.not_mem_nil
  | some _ => rfl

end FrameGraph

end LidarSync
