import Mathlib.Combinatorics.SimpleGraph.Acyclic
import LidarSync.Proofs.Geometry.Rigid
import LidarSync.Proofs.Geometry.Search

/-!
# Frames without cycles

Where the transforms have no cycle (`IsForest`), each of them connects frames that the others leave apart
(`isForest_cons_iff`). So all frames can be put into places such that the transforms lead from one to
another (`IsForest.exists_fits`): with each further transform, the frames on one side of it are moved
together. Then a lookup has the motion from the place of one frame to that of the other, whichever way it
takes (`Fits.lookup_eq`). The places do not depend on the order of the transforms or on their
directions; lookups compose, and turning them around inverts them (`lookup_composes`).
-/

namespace LidarSync

section Hops

variable {α : Type} [Scalar α] {es fs : List (Edge α)} {e : Edge α} {a b : String} {pose : Pose α}

/-- The transform in the other direction. -/
def Edge.turned : Edge α → Edge α
  | (parent, child, pose) => (child, parent, pose.inverse)

theorem hop_iff : Hop es a b pose ↔ ∃ e ∈ es, (a, b, pose) = e ∨ (a, b, pose) = e.turned := by
  constructor
  · rintro (listed | listed)
    · exact ⟨_, listed, Or.inl rfl⟩
    · exact ⟨_, listed, Or.inr rfl⟩
  · rintro ⟨⟨parent, child, p⟩, listed, heq | heq⟩
    · cases heq
      exact .down listed
    · cases heq
      exact .up listed

theorem hop_cons_iff : Hop (e :: es) a b pose ↔
    ((a, b, pose) = e ∨ (a, b, pose) = e.turned) ∨ Hop es a b pose := by
  rw [hop_iff, hop_iff, List.exists_mem_cons_iff]

theorem exists_hop_iff : (∃ pose, Hop es a b pose) ↔ ∃ e ∈ es, s(a, b) = s(e.1, e.2.1) := by
  constructor
  · rintro ⟨_, listed | listed⟩
    · exact ⟨_, listed, rfl⟩
    · exact ⟨_, listed, Sym2.eq_swap⟩
  · rintro ⟨⟨parent, child, pose⟩, listed, heq⟩
    rcases Sym2.eq_iff.1 heq with ⟨rfl, rfl⟩ | ⟨rfl, rfl⟩
    · exact ⟨_, .down listed⟩
    · exact ⟨_, .up listed⟩

theorem Way.mono (h : ∀ a b pose, Hop es a b pose → Hop fs a b pose) {poses : List (Pose α)}
    (way : Way es a poses b) : Way fs a poses b := by
  induction way with
  | here => exact .here
  | on _ hop ih => exact .on ih (h _ _ _ hop)

end Hops

namespace FrameGraph

section Forests

variable {α : Type} [Scalar α] {es : List (Edge α)} {e : Edge α} {a b c : String} {pose : Pose α}

/-! ## The undirected graph -/

/-- The frames as an undirected graph, in which the transforms are the edges. -/
def frameGraph (es : List (Edge α)) : SimpleGraph String where
  Adj a b := a ≠ b ∧ ∃ pose, Hop es a b pose
  symm := ⟨fun _ _ h => ⟨h.1.symm, h.2.elim fun _ hop => hop.exists_back⟩⟩
  loopless := ⟨fun _ h => h.1 rfl⟩

theorem frameGraph_adj :
    (frameGraph es).Adj a b ↔ a ≠ b ∧ ∃ e ∈ es, s(a, b) = s(e.1, e.2.1) := by
  rw [← exists_hop_iff]
  rfl

theorem frameGraph_cons (e : Edge α) (es : List (Edge α)) :
    frameGraph (e :: es) = frameGraph es ⊔ SimpleGraph.edge e.1 e.2.1 := by
  ext a b
  rw [SimpleGraph.sup_adj, SimpleGraph.adj_edge, frameGraph_adj, frameGraph_adj,
    List.exists_mem_cons_iff, and_or_left, or_comm, and_comm (a := a ≠ b) (b := _ = _), eq_comm]

theorem connected_iff_reachable : Connected es a b ↔ (frameGraph es).Reachable a b := by
  constructor
  · rintro ⟨poses, way⟩
    induction way with
    | here => exact .rfl
    | @on poses frame next pose way hop ih =>
      by_cases heq : frame = next
      · exact heq ▸ ih
      · exact ih.trans (SimpleGraph.Adj.reachable ⟨heq, pose, hop⟩)
  · rw [SimpleGraph.reachable_iff_reflTransGen]
    intro h
    induction h with
    | refl => exact ⟨[], .here⟩
    | tail _ hadj ih =>
      obtain ⟨poses, way⟩ := ih
      obtain ⟨-, pose, hop⟩ := hadj
      exact ⟨_, way.on hop⟩

theorem Connected.symm (h : Connected es a b) : Connected es b a :=
  connected_iff_reachable.2 (connected_iff_reachable.1 h).symm

theorem Connected.trans (hab : Connected es a b) (hbc : Connected es b c) : Connected es a c :=
  connected_iff_reachable.2 ((connected_iff_reachable.1 hab).trans (connected_iff_reachable.1 hbc))

theorem Connected.of_hop (hop : Hop es a b pose) : Connected es a b := ⟨_, .on .here hop⟩

/-! ## Forests -/

/-- No cycle leads from a frame along transforms back to it, each passed at most once. -/
structure IsForest (es : List (Edge α)) : Prop where
  /-- No transform is from a frame to itself. -/
  loopless : ∀ e ∈ es, e.1 ≠ e.2.1
  /-- No two transforms are between the same frames, in the same direction or in both. -/
  single : es.Pairwise fun e f => s(e.1, e.2.1) ≠ s(f.1, f.2.1)
  acyclic : (frameGraph es).IsAcyclic

theorem isForest_nil : IsForest ([] : List (Edge α)) where
  loopless := nofun
  single := .nil
  acyclic := by
    have hbot : frameGraph ([] : List (Edge α)) = ⊥ := by
      ext a b
      simp [frameGraph_adj]
    rw [hbot]
    exact SimpleGraph.isAcyclic_bot

/-- A forest grows by a transform between frames that were not connected. -/
theorem isForest_cons_iff : IsForest (e :: es) ↔ IsForest es ∧ ¬ Connected es e.1 e.2.1 := by
  rw [connected_iff_reachable]
  constructor
  · rintro ⟨hloopless, hsingle, hacyclic⟩
    rw [frameGraph_cons, SimpleGraph.isAcyclic_sup_fromEdgeSet_iff] at hacyclic
    rw [List.pairwise_cons] at hsingle
    rw [List.forall_mem_cons] at hloopless
    refine ⟨⟨hloopless.2, hsingle.2, hacyclic.1⟩, fun hreachable => ?_⟩
    rcases hacyclic.2 hreachable with heq | hadj
    · exact hloopless.1 heq
    · obtain ⟨-, f, hf, heq⟩ := frameGraph_adj.1 hadj
      exact hsingle.1 f hf heq
  · rintro ⟨⟨hloopless, hsingle, hacyclic⟩, hapart⟩
    refine ⟨List.forall_mem_cons.2 ⟨fun heq => hapart (heq ▸ .rfl), hloopless⟩,
      List.pairwise_cons.2 ⟨fun f hf heq => ?_, hsingle⟩, ?_⟩
    · obtain ⟨pose, hop⟩ := exists_hop_iff.2 ⟨f, hf, heq⟩
      exact hapart (connected_iff_reachable.1 (.of_hop hop))
    · rw [frameGraph_cons]
      exact hacyclic.sup_edge_of_not_reachable hapart

end Forests

/-! ## Frames in places -/

/-- Frames in places such that each hop is the motion from one place to the other. -/
def Fits (es : List (Edge ℝ)) (place : String → RigidMotion) : Prop :=
  ∀ a b pose, Hop es a b pose → pose = ((place a)⁻¹ * place b).1

section Places

variable {es fs : List (Edge ℝ)} {e : Edge ℝ} {a b c : String} {place : String → RigidMotion}

theorem Fits.along_eq (h : Fits es place) {poses : List (Pose ℝ)} (way : Way es a poses b) :
    Pose.along poses = ((place a)⁻¹ * place b).1 := by
  induction way with
  | here =>
    rw [inv_mul_cancel]
    rfl
  | @on poses frame next pose way hop ih =>
    rw [Pose.along_concat, ih, h frame next pose hop, ← RigidMotion.val_mul, mul_assoc,
      mul_inv_cancel_left]

/-- Whichever way a lookup takes, it has the motion from place to place. -/
theorem Fits.lookup_eq (h : Fits es place) (hconnected : Connected es a b) :
    (ofEdges es).lookup a b = some ((place a)⁻¹ * place b).1 := by
  obtain ⟨pose, hpose⟩ := Option.isSome_iff_exists.1 (lookup_isSome_iff.2 hconnected)
  obtain ⟨poses, way, -, rfl⟩ := exists_way_of_lookup hpose
  rw [hpose, h.along_eq way]

open Classical in
/-- All frames connected with one of them, moved together. -/
noncomputable def movedSide (es : List (Edge ℝ)) (side : String) (motion : RigidMotion)
    (place : String → RigidMotion) (frame : String) : RigidMotion :=
  if Connected es side frame then motion * place frame else place frame

theorem Fits.movedSide (h : Fits es place) (side : String) (motion : RigidMotion) :
    Fits es (movedSide es side motion place) := by
  intro a b pose hop
  have hsame : Connected es side a ↔ Connected es side b :=
    ⟨fun hside => hside.trans (.of_hop hop), fun hside => hside.trans (Connected.of_hop hop).symm⟩
  rw [h a b pose hop]
  unfold FrameGraph.movedSide
  by_cases hside : Connected es side a
  · rw [if_pos hside, if_pos (hsame.1 hside), mul_inv_rev, mul_assoc, inv_mul_cancel_left]
  · rw [if_neg hside, if_neg fun hb => hside (hsame.2 hb)]

/-- A transform fits when its child is where it leads from the place of its parent. -/
theorem Fits.cons (h : Fits es place) (motion : RigidMotion) (hmotion : motion.1 = e.2.2)
    (hplace : place e.2.1 = place e.1 * motion) : Fits (e :: es) place := by
  obtain ⟨parent, child, pose⟩ := e
  obtain rfl : motion.1 = pose := hmotion
  have hforth : motion = (place parent)⁻¹ * place child := by
    rw [hplace, inv_mul_cancel_left]
  intro a b p hop
  rcases hop_cons_iff.1 hop with (heq | heq) | hop
  · cases heq
    rw [← hforth]
  · cases heq
    rw [← RigidMotion.val_inv, hforth, mul_inv_rev, inv_inv]
  · exact h a b p hop

/-- In a forest of rigid motions all frames have places. -/
theorem IsForest.exists_fits (h : IsForest es) (hrigid : ∀ e ∈ es, e.2.2.IsRigid) :
    ∃ place, Fits es place := by
  induction es with
  | nil => exact ⟨fun _ => 1, fun a b pose hop => by simp [hop_iff] at hop⟩
  | cons e es ih =>
    obtain ⟨hforest, hapart⟩ := isForest_cons_iff.1 h
    obtain ⟨hfirst, hrest⟩ := List.forall_mem_cons.1 hrigid
    obtain ⟨place, hfits⟩ := ih hforest hrest
    let motion : RigidMotion := ⟨e.2.2, hfirst⟩
    -- What is connected with the child is moved, so that the child is where the transform leads.
    let shift := place e.1 * motion * (place e.2.1)⁻¹
    refine ⟨movedSide es e.2.1 shift place, (hfits.movedSide _ _).cons motion rfl ?_⟩
    have hchild : Connected es e.2.1 e.2.1 := ⟨[], .here⟩
    have hparent : ¬ Connected es e.2.1 e.1 := fun hside => hapart hside.symm
    unfold movedSide
    rw [if_pos hchild, if_neg hparent, inv_mul_cancel_right]

/-! ## The list of transforms -/

/-- The same transforms in another order, some of them in the other direction. -/
def Rearranged (es fs : List (Edge ℝ)) : Prop :=
  ∃ ordered, es.Perm ordered ∧ List.Forall₂ (fun e f => f = e ∨ f = e.turned) ordered fs

theorem turned_turned (hrigid : e.2.2.IsRigid) : e.turned.turned = e := by
  let motion : RigidMotion := ⟨e.2.2, hrigid⟩
  have hinverse : e.2.2.inverse.inverse = e.2.2 :=
    congrArg Subtype.val (inv_inv motion)
  exact Prod.ext rfl (Prod.ext rfl hinverse)

theorem Rearranged.hop_congr (h : Rearranged es fs) (hrigid : ∀ e ∈ es, e.2.2.IsRigid)
    {pose : Pose ℝ} : Hop fs a b pose ↔ Hop es a b pose := by
  obtain ⟨ordered, hperm, hturned⟩ := h
  have hordered : Hop es a b pose ↔ Hop ordered a b pose := by
    simp only [hop_iff, hperm.mem_iff]
  simp only [hperm.mem_iff] at hrigid
  rw [hordered]
  clear hperm hordered
  induction hturned with
  | nil => rfl
  | cons hturned _ ih =>
    rw [List.forall_mem_cons] at hrigid
    rw [hop_cons_iff, hop_cons_iff]
    refine or_congr ?_ (ih hrigid.2)
    rcases hturned with rfl | rfl
    · rfl
    · rw [turned_turned hrigid.1, or_comm]

/-- What a lookup finds in a forest does not depend on how the transforms are listed. -/
theorem Rearranged.lookup_eq (h : Rearranged es fs) (hforest : IsForest es)
    (hrigid : ∀ e ∈ es, e.2.2.IsRigid) (a b : String) :
    (ofEdges fs).lookup a b = (ofEdges es).lookup a b := by
  obtain ⟨place, hfits⟩ := hforest.exists_fits hrigid
  have hfits' : Fits fs place := fun a b pose hop => hfits a b pose ((h.hop_congr hrigid).1 hop)
  have hconnected : Connected fs a b ↔ Connected es a b :=
    ⟨fun ⟨poses, way⟩ => ⟨poses, way.mono fun _ _ _ => (h.hop_congr hrigid).1⟩,
      fun ⟨poses, way⟩ => ⟨poses, way.mono fun _ _ _ => (h.hop_congr hrigid).2⟩⟩
  by_cases hes : Connected es a b
  · rw [hfits.lookup_eq hes, hfits'.lookup_eq (hconnected.2 hes)]
  · have hnone {gs : List (Edge ℝ)} (hgs : ¬ Connected gs a b) : (ofEdges gs).lookup a b = none :=
      Option.not_isSome_iff_eq_none.1 (mt lookup_isSome_iff.1 hgs)
    rw [hnone hes, hnone (mt hconnected.1 hes)]

/-- Lookups compose in a forest of rigid motions: for connected frames `a`, `b` and `c`, the lookup of
`c` from `a` is the product of those by way of `b`, and the lookup of `a` from `b` is the inverse of
that of `b` from `a`. No lookup depends on the order in which the transforms are listed, or on which of
them are listed in the other direction with the inverse pose. -/
theorem lookup_composes (hforest : IsForest es) (hrigid : ∀ e ∈ es, e.2.2.IsRigid) :
    (∀ a b c, Connected es a b → Connected es b c → ∃ p q : RigidMotion,
      (ofEdges es).lookup a b = some p.1 ∧ (ofEdges es).lookup b c = some q.1 ∧
      (ofEdges es).lookup a c = some (p * q).1 ∧ (ofEdges es).lookup b a = some p⁻¹.1) ∧
    ∀ fs, Rearranged es fs → ∀ a b, (ofEdges fs).lookup a b = (ofEdges es).lookup a b := by
  obtain ⟨place, hfits⟩ := hforest.exists_fits hrigid
  refine ⟨fun a b c hab hbc => ?_, fun fs h => h.lookup_eq hforest hrigid⟩
  refine ⟨(place a)⁻¹ * place b, (place b)⁻¹ * place c, hfits.lookup_eq hab, hfits.lookup_eq hbc,
    ?_, ?_⟩
  · rw [hfits.lookup_eq (hab.trans hbc), mul_assoc, mul_inv_cancel_left]
  · rw [hfits.lookup_eq hab.symm, mul_inv_rev, inv_inv]

end Places

/-- A mast with two arms, each of them turned about another axis. -/
noncomputable def mast : List (Edge ℝ) :=
  [("base", "mast", ⟨⟨0, 0, 2⟩, .ofAngles 0 0 1⟩), ("mast", "left", ⟨⟨0, 1, 0⟩, .ofAngles 1 0 0⟩),
    ("mast", "right", ⟨⟨0, -1, 0⟩, .ofAngles 0 1 0⟩)]

/-- The mast with its arms listed first, the right one from its end. -/
noncomputable def mastFromRight : List (Edge ℝ) :=
  [("right", "mast", Pose.inverse ⟨⟨0, -1, 0⟩, .ofAngles 0 1 0⟩),
    ("mast", "left", ⟨⟨0, 1, 0⟩, .ofAngles 1 0 0⟩), ("base", "mast", ⟨⟨0, 0, 2⟩, .ofAngles 0 0 1⟩)]

theorem isForest_mast : IsForest mast := by
  have hapart {es : List (Edge ℝ)} {a b : String} (h : ((ofEdges es).lookup a b).isSome = false) :
      ¬ Connected es a b := fun hconnected => by
    rw [lookup_isSome_iff.2 hconnected] at h
    exact nomatch h
  refine isForest_cons_iff.2 ⟨?_, hapart (by decide)⟩
  refine isForest_cons_iff.2 ⟨?_, hapart (by decide)⟩
  exact isForest_cons_iff.2 ⟨isForest_nil, hapart (by decide)⟩

theorem isRigid_mast : ∀ e ∈ mast, e.2.2.IsRigid := by
  simp [mast, Pose.isRigid_ofAngles]

theorem lookup_composes_mast : IsForest mast ∧ (∀ e ∈ mast, e.2.2.IsRigid) ∧
    (∃ p q : RigidMotion, (ofEdges mast).lookup "left" "mast" = some p.1 ∧
      (ofEdges mast).lookup "mast" "right" = some q.1 ∧
      (ofEdges mast).lookup "left" "right" = some (p * q).1 ∧
      (ofEdges mast).lookup "mast" "left" = some p⁻¹.1) ∧
    (ofEdges mastFromRight).lookup "left" "right" = (ofEdges mast).lookup "left" "right" := by
  obtain ⟨hcompose, hrearranged⟩ := lookup_composes isForest_mast isRigid_mast
  refine ⟨isForest_mast, isRigid_mast, hcompose "left" "mast" "right" ?_ ?_,
    hrearranged mastFromRight ?_ "left" "right"⟩
  · exact .of_hop (.up (List.mem_cons_of_mem _ List.mem_cons_self))
  · exact .of_hop (.down (List.mem_cons_of_mem _ (List.mem_cons_of_mem _ List.mem_cons_self)))
  · refine ⟨mast.reverse, (List.reverse_perm mast).symm, ?_⟩
    exact .cons (Or.inr rfl) (.cons (Or.inl rfl) (.cons (Or.inl rfl) .nil))

end FrameGraph

end LidarSync
