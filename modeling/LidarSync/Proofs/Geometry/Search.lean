import LidarSync.Proofs.Geometry.Hops
import Mathlib.Data.List.Perm.Subperm

/-!
# What the search for a frame finds

The search visits the frames in the order of their distance from the target. `Surveyed` is what holds
between two visits: every frame that was reached has the pose of a shortest way to it, the neighbours of
those visited are reached, and those that wait are at most one hop farther away than the first of them.
So a frame that is not reached yet is farther away than the one that is visited next
(`Surveyed.reached_or_beyond`), and when no frame waits, all connected ones are reached. A visit keeps
this (`Surveyed.visit`), and there are no more visits than frames (`Surveyed.search`).

`Seeks` is the search as a loop that ends when the source is reached, without a bound on its visits; it
ends, and with the same answer (`Surveyed.seeks`).
-/

namespace LidarSync.FrameGraph

variable {α : Type}

/-- The names of the frames that were reached. -/
abbrev names (found : List (Reached α)) : List String := found.map Prod.fst

theorem names_append (found fresh : List (Reached α)) :
    names (found ++ fresh) = names found ++ names fresh := List.map_append

/-- A visit moves a frame from the queue over to the visited ones. -/
theorem visited_append (visited queue fresh : List (Reached α)) (here : Reached α) :
    (visited ++ [here]) ++ (queue ++ fresh) = (visited ++ here :: queue) ++ fresh := by
  rw [List.append_assoc, List.append_assoc]
  rfl

theorem isReached_iff {found : List (Reached α)} {frame : String} :
    isReached found frame = true ↔ frame ∈ names found := Keyed.mem_keys_iff.symm

variable [Scalar α]

/-! ## One visit -/

/-- What a visit adds: the neighbours of a frame that were not reached before, once each. -/
structure Adds (neighbours : List (String × Pose α)) (found : List (Reached α)) (here : Reached α)
    (fresh : List (Reached α)) : Prop where
  nodup : (names fresh).Nodup
  hop : ∀ r ∈ fresh, ∃ pose, (r.1, pose) ∈ neighbours ∧ r.2 = here.2 * pose
  new : ∀ r ∈ fresh, r.1 ∉ names found
  all : ∀ n ∈ neighbours, n.1 ∈ names found ∨ n.1 ∈ names fresh

theorem Adds.known {ns : List (String × Pose α)} {found fresh : List (Reached α)} {here : Reached α}
    {n : String × Pose α} (hadds : Adds ns found here fresh)
    (hknown : n.1 ∈ names found ∨ n.1 ∈ names fresh) : Adds (ns ++ [n]) found here fresh where
  nodup := hadds.nodup
  hop r hr := by
    obtain ⟨pose, hpose, heq⟩ := hadds.hop r hr
    exact ⟨pose, List.mem_append_left _ hpose, heq⟩
  new := hadds.new
  all := by
    rw [List.forall_mem_append, List.forall_mem_singleton]
    exact ⟨hadds.all, hknown⟩

theorem Adds.another {ns : List (String × Pose α)} {found fresh : List (Reached α)} {here : Reached α}
    {n : String × Pose α} (hadds : Adds ns found here fresh) (hfound : n.1 ∉ names found)
    (hfresh : n.1 ∉ names fresh) : Adds (ns ++ [n]) found here (fresh ++ [(n.1, here.2 * n.2)]) where
  nodup := by
    rw [names_append]
    refine List.nodup_append.2 ⟨hadds.nodup, List.nodup_singleton _, ?_⟩
    rintro name hname _ hn rfl
    exact hfresh (List.mem_singleton.1 hn ▸ hname)
  hop := by
    rw [List.forall_mem_append, List.forall_mem_singleton]
    refine ⟨fun r hr => ?_, n.2, List.mem_append_right _ (List.mem_singleton_self n), rfl⟩
    obtain ⟨pose, hpose, heq⟩ := hadds.hop r hr
    exact ⟨pose, List.mem_append_left _ hpose, heq⟩
  new := by
    rw [List.forall_mem_append, List.forall_mem_singleton]
    exact ⟨hadds.new, hfound⟩
  all := by
    rw [List.forall_mem_append, List.forall_mem_singleton, names_append]
    refine ⟨fun m hm => ?_, Or.inr (List.mem_append_right _ (List.mem_singleton_self n.1))⟩
    exact (hadds.all m hm).imp_right (List.mem_append_left _)

theorem adds_freshNeighbours (g : FrameGraph α) (found : List (Reached α)) (here : Reached α) :
    Adds (g.neighbours here.1) found here (g.freshNeighbours found here) := by
  unfold freshNeighbours
  induction g.neighbours here.1 using List.reverseRecOn with
  | nil => exact ⟨List.nodup_nil, nofun, nofun, nofun⟩
  | append_singleton ns n ih =>
    rw [List.foldl_concat]
    dsimp only
    split
    · next hreached =>
      rw [Bool.or_eq_true, isReached_iff, isReached_iff] at hreached
      exact ih.known hreached
    · next hreached =>
      rw [Bool.or_eq_true, isReached_iff, isReached_iff, not_or] at hreached
      exact ih.another hreached.1 hreached.2

/-! ## The frames that were reached -/

/-- What holds between two visits, of the frames that were visited and of those that wait. -/
structure Surveyed (es : List (Edge α)) (target : String) (visited queue : List (Reached α)) :
    Prop where
  nodup : (names (visited ++ queue)).Nodup
  start : target ∈ names (visited ++ queue)
  /-- The pose of a frame is the product of those on a shortest way to it. -/
  way : ∀ r ∈ visited ++ queue, ∃ poses, Way es target poses r.1 ∧
    poses.length = hopsTo es target r.1 ∧ r.2 = Pose.along poses
  closed : ∀ r ∈ visited, ∀ next pose, Hop es r.1 next pose → next ∈ names (visited ++ queue)
  sorted : queue.Pairwise fun r s => hopsTo es target r.1 ≤ hopsTo es target s.1
  near : ∀ r ∈ queue.head?, ∀ s ∈ queue, hopsTo es target s.1 ≤ hopsTo es target r.1 + 1

section Surveys

variable {es : List (Edge α)} {target source frame : String} {visited queue fresh : List (Reached α)}
  {here : Reached α} {poses : List (Pose α)}

theorem surveyed_start (es : List (Edge α)) (target : String) :
    Surveyed es target [] [(target, Pose.identity)] where
  nodup := List.nodup_singleton _
  start := List.mem_singleton_self _
  way := by
    rw [List.nil_append, List.forall_mem_singleton]
    exact ⟨[], .here, (hopsTo_self es target).symm, rfl⟩
  closed := nofun
  sorted := List.pairwise_singleton _ _
  near := by
    rintro r hr
    cases hr
    rw [List.forall_mem_singleton]
    exact Nat.le_succ _

/-- A frame that is not reached yet is farther away than the next one in the queue. -/
theorem Surveyed.reached_or_beyond (h : Surveyed es target visited queue)
    (way : Way es target poses frame) : frame ∈ names (visited ++ queue) ∨
      ∃ r ∈ queue.head?, hopsTo es target r.1 < poses.length := by
  induction way with
  | here => exact Or.inl h.start
  | @on poses frame next pose way hop ih =>
    rw [List.length_append, List.length_singleton]
    rcases ih with hreached | ⟨r, hr, hbeyond⟩
    · obtain ⟨s, hs, rfl⟩ := List.mem_map.1 hreached
      rcases List.mem_append.1 hs with hs | hs
      · exact Or.inl (h.closed s hs next pose hop)
      · cases queue with
        | nil => exact absurd hs List.not_mem_nil
        | cons r rest =>
          refine Or.inr ⟨r, rfl, Nat.lt_succ_of_le ?_⟩
          have hfirst : hopsTo es target r.1 ≤ hopsTo es target s.1 := by
            rcases List.mem_cons.1 hs with rfl | hs
            · exact Nat.le_refl _
            · exact (List.pairwise_cons.1 h.sorted).1 s hs
          exact hfirst.trans way.hopsTo_le
    · exact Or.inr ⟨r, hr, Nat.lt_succ_of_lt hbeyond⟩

/-- What a visit adds is one hop farther away than the frame visited. -/
theorem Surveyed.hopsTo_fresh (h : Surveyed es target visited (here :: queue))
    (hfresh : Adds ((ofEdges es).neighbours here.1) (visited ++ here :: queue) here fresh)
    {r : Reached α} (hr : r ∈ fresh) : (∃ poses, Way es target poses r.1 ∧
      poses.length = hopsTo es target r.1 ∧ r.2 = Pose.along poses) ∧
      hopsTo es target r.1 = hopsTo es target here.1 + 1 := by
  obtain ⟨pose, hmem, hpose⟩ := hfresh.hop r hr
  have hop := mem_neighbours_iff.1 hmem
  obtain ⟨poses, way, hlength, halong⟩ := h.way here (List.mem_append_right _ List.mem_cons_self)
  have hnext := way.on hop
  have hlength' : (poses ++ [pose]).length = hopsTo es target here.1 + 1 := by
    rw [List.length_append, List.length_singleton, hlength]
  have hle := hnext.hopsTo_le
  obtain ⟨shortest, hshortest, hleast⟩ := hnext.exists_shortest
  have hlt : hopsTo es target here.1 < shortest.length := by
    rcases h.reached_or_beyond hshortest with hreached | ⟨s, hs, hbeyond⟩
    · exact absurd hreached (hfresh.new r hr)
    · cases hs
      exact hbeyond
  have hexact : hopsTo es target r.1 = hopsTo es target here.1 + 1 := by omega
  exact ⟨⟨poses ++ [pose], hnext, by omega, by rw [Pose.along_concat, ← halong, hpose]⟩, hexact⟩

theorem Surveyed.visit (h : Surveyed es target visited (here :: queue))
    (hfresh : Adds ((ofEdges es).neighbours here.1) (visited ++ here :: queue) here fresh) :
    Surveyed es target (visited ++ [here]) (queue ++ fresh) := by
  have hfound := visited_append visited queue fresh here
  have hnames := names_append (visited ++ here :: queue) fresh
  have hexact := fun r hr => (h.hopsTo_fresh hfresh (r := r) hr).2
  have hwait : ∀ r ∈ queue, hopsTo es target here.1 ≤ hopsTo es target r.1 ∧
      hopsTo es target r.1 ≤ hopsTo es target here.1 + 1 := fun r hr =>
    ⟨(List.pairwise_cons.1 h.sorted).1 r hr, h.near here rfl r (List.mem_cons_of_mem _ hr)⟩
  refine ⟨?_, ?_, ?_, ?_, ?_, ?_⟩
  · rw [hfound, hnames, List.nodup_append]
    refine ⟨h.nodup, hfresh.nodup, fun a ha b hb heq => ?_⟩
    obtain ⟨r, hr, rfl⟩ := List.mem_map.1 hb
    exact hfresh.new r hr (heq ▸ ha)
  · rw [hfound, hnames]
    exact List.mem_append_left _ h.start
  · rw [hfound, List.forall_mem_append]
    exact ⟨h.way, fun r hr => (h.hopsTo_fresh hfresh hr).1⟩
  · rw [hfound, hnames, List.forall_mem_append, List.forall_mem_singleton]
    refine ⟨fun r hr next pose hop => List.mem_append_left _ (h.closed r hr next pose hop),
      fun next pose hop => ?_⟩
    exact List.mem_append.2 (hfresh.all (next, pose) (mem_neighbours_iff.2 hop))
  · rw [List.pairwise_append]
    refine ⟨(List.pairwise_cons.1 h.sorted).2, ?_, fun r hr s hs => ?_⟩
    · refine List.pairwise_of_forall_mem_list fun r hr s hs => ?_
      rw [hexact r hr, hexact s hs]
    · rw [hexact s hs]
      exact (hwait r hr).2
  · intro r hr
    have hleast : hopsTo es target here.1 ≤ hopsTo es target r.1 := by
      rcases List.mem_append.1 (List.mem_of_mem_head? hr) with hr | hr
      · exact (hwait r hr).1
      · rw [hexact r hr]
        exact Nat.le_succ _
    rw [List.forall_mem_append]
    refine ⟨fun s hs => (hwait s hs).2.trans (Nat.succ_le_succ hleast), fun s hs => ?_⟩
    rw [hexact s hs]
    exact Nat.succ_le_succ hleast

/-- Only the target and frames with entries of their own are reached. -/
theorem Surveyed.length_le (h : Surveyed es target visited queue) :
    (visited ++ queue).length ≤ (ofEdges es).edges.length + 1 := by
  have hsubset : names (visited ++ queue) ⊆ target :: (ofEdges es).edges.map Prod.fst := by
    intro frame hframe
    obtain ⟨r, hr, rfl⟩ := List.mem_map.1 hframe
    obtain ⟨poses, way, -⟩ := h.way r hr
    cases way with
    | here => exact List.mem_cons_self
    | on _ hop =>
      obtain ⟨back, hback⟩ := hop.exists_back
      exact List.mem_cons_of_mem _ (mem_edges_of_hop hback)
  have hlength := (List.subperm_of_subset h.nodup hsubset).length_le
  rwa [List.length_map, List.length_cons, List.length_map] at hlength

/-- No frame waits when there were as many visits as frames. -/
theorem Surveyed.queue_eq_nil (h : Surveyed es target visited queue)
    (hvisits : (ofEdges es).edges.length + 1 ≤ visited.length) : queue = [] := by
  have hlength := h.length_le
  rw [List.length_append] at hlength
  exact List.length_eq_zero_iff.1 (by omega)

theorem search_cons (g : FrameGraph α) (visits : Nat) (visited queue : List (Reached α))
    (here : Reached α) : g.search (visits + 1) (visited ++ here :: queue) (here :: queue)
      = g.search visits
          ((visited ++ [here]) ++ (queue ++ g.freshNeighbours (visited ++ here :: queue) here))
          (queue ++ g.freshNeighbours (visited ++ here :: queue) here) := by
  rw [visited_append]
  rfl

/-- With enough visits, the search ends when no frame waits any more. -/
theorem Surveyed.search (h : Surveyed es target visited queue) (visits : Nat)
    (hvisits : (ofEdges es).edges.length + 1 ≤ visited.length + visits) :
    Surveyed es target ((ofEdges es).search visits (visited ++ queue) queue) [] := by
  induction visits generalizing visited queue with
  | zero =>
    obtain rfl := h.queue_eq_nil hvisits
    rw [List.append_nil]
    exact h
  | succ visits ih =>
    cases queue with
    | nil =>
      rw [List.append_nil]
      exact h
    | cons here queue =>
      rw [search_cons]
      apply ih (h.visit (adds_freshNeighbours _ _ _))
      rw [List.length_append, List.length_singleton]
      omega

/-! ## The loop that stops at the source -/

/-- How the search for a source ends: with its pose as soon as it is among the frames that a visit
adds, and with none when no frame waits. -/
inductive Seeks (g : FrameGraph α) (source : String) :
    List (Reached α) → List (Reached α) → Option (Pose α) → Prop where
  | exhausted {found : List (Reached α)} : Seeks g source found [] none
  | met {found queue : List (Reached α)} {here : Reached α} {pose : Pose α}
      (added : (g.freshNeighbours found here).lookup source = some pose) :
      Seeks g source found (here :: queue) (some pose)
  | onward {found queue : List (Reached α)} {here : Reached α} {answer : Option (Pose α)}
      (missed : (g.freshNeighbours found here).lookup source = none)
      (rest : Seeks g source (found ++ g.freshNeighbours found here)
        (queue ++ g.freshNeighbours found here) answer) :
      Seeks g source found (here :: queue) answer

theorem prefix_search (g : FrameGraph α) (visits : Nat) (found queue : List (Reached α)) :
    found <+: g.search visits found queue := by
  induction visits generalizing found queue with
  | zero => exact List.prefix_rfl
  | succ visits ih =>
    cases queue with
    | nil => exact List.prefix_rfl
    | cons here queue => exact (List.prefix_append _ _).trans (ih _ _)

/-- The loop ends, with the pose that the search to the end has for the source. -/
theorem Surveyed.seeks (h : Surveyed es target visited queue) (visits : Nat)
    (hvisits : (ofEdges es).edges.length + 1 ≤ visited.length + visits)
    (hsource : (visited ++ queue).lookup source = none) :
    Seeks (ofEdges es) source (visited ++ queue) queue
      (((ofEdges es).search visits (visited ++ queue) queue).lookup source) := by
  induction visits generalizing visited queue with
  | zero =>
    obtain rfl := h.queue_eq_nil hvisits
    change Seeks _ _ _ _ ((visited ++ []).lookup source)
    rw [hsource]
    exact .exhausted
  | succ visits ih =>
    cases queue with
    | nil =>
      change Seeks _ _ _ _ ((visited ++ []).lookup source)
      rw [hsource]
      exact .exhausted
    | cons here queue =>
      cases hfresh : ((ofEdges es).freshNeighbours (visited ++ here :: queue) here).lookup source with
      | none =>
        refine .onward hfresh ?_
        rw [search_cons, ← visited_append]
        apply ih (h.visit (adds_freshNeighbours _ _ _))
        · rw [List.length_append, List.length_singleton]
          omega
        · rw [visited_append, List.lookup_append, hsource, hfresh]
          rfl
      | some pose =>
        obtain ⟨rest, hrest⟩ := prefix_search (ofEdges es) visits
          ((visited ++ here :: queue) ++ (ofEdges es).freshNeighbours (visited ++ here :: queue) here)
          (queue ++ (ofEdges es).freshNeighbours (visited ++ here :: queue) here)
        rw [search_cons, visited_append, ← hrest, List.lookup_append, List.lookup_append, hsource,
          hfresh]
        exact .met hfresh

/-! ## Lookups -/

theorem surveyed_connected (es : List (Edge α)) (target : String) :
    Surveyed es target ((ofEdges es).connected target) [] :=
  (surveyed_start es target).search _ (by simp)

/-- Frames are connected when there is a way from one to the other. -/
def Connected (es : List (Edge α)) (target source : String) : Prop := ∃ poses, Way es target poses source

theorem mem_names_connected_iff :
    source ∈ names ((ofEdges es).connected target) ↔ Connected es target source := by
  have hsurveyed := surveyed_connected es target
  constructor
  · intro hmem
    obtain ⟨r, hr, rfl⟩ := List.mem_map.1 hmem
    obtain ⟨poses, way, -⟩ := hsurveyed.way r (List.mem_append_left _ hr)
    exact ⟨poses, way⟩
  · rintro ⟨poses, way⟩
    rcases hsurveyed.reached_or_beyond way with hmem | ⟨r, hr, -⟩
    · rwa [List.append_nil] at hmem
    · exact nomatch hr

theorem lookup_isSome_iff :
    ((ofEdges es).lookup target source).isSome = true ↔ Connected es target source := by
  unfold FrameGraph.lookup
  split
  · next heq =>
    subst heq
    exact iff_of_true rfl ⟨[], .here⟩
  · exact Keyed.mem_keys_iff.symm.trans mem_names_connected_iff

/-- The pose that a lookup finds is the product of those on a shortest way. -/
theorem exists_way_of_lookup {pose : Pose α} (h : (ofEdges es).lookup target source = some pose) :
    ∃ poses, Way es target poses source ∧ poses.length = hopsTo es target source ∧
      pose = Pose.along poses := by
  unfold FrameGraph.lookup at h
  split at h
  · next heq =>
    subst heq
    cases h
    exact ⟨[], .here, (hopsTo_self es target).symm, rfl⟩
  · exact (surveyed_connected es target).way _ (List.mem_append_left _ (Keyed.mem_of_get? h))

/-- For every list of transforms, looking up one frame from another one comes to an end: unless they
are the same, the loop that stops at the source has the same answer. There is an answer exactly when the
frames are connected by transforms, passed in either direction, and it is the product, from the target
to the source, of the poses on a way with the fewest hops; from a frame to itself that is the identity. -/
theorem lookup_shortest (es : List (Edge α)) (target source : String) :
    (target ≠ source → Seeks (ofEdges es) source [(target, Pose.identity)]
      [(target, Pose.identity)] ((ofEdges es).lookup target source)) ∧
    (((ofEdges es).lookup target source).isSome = true ↔ ∃ poses, Way es target poses source) ∧
    (∀ pose, (ofEdges es).lookup target source = some pose → ∃ poses, Way es target poses source ∧
      pose = Pose.along poses ∧ ∀ others, Way es target others source → poses.length ≤ others.length) ∧
    (target = source → (ofEdges es).lookup target source = some Pose.identity) := by
  refine ⟨fun hne => ?_, lookup_isSome_iff, fun pose h => ?_, fun heq => if_pos heq⟩
  · have hmiss : [(target, (Pose.identity : Pose α))].lookup source = none :=
      (Keyed.get?_cons target Pose.identity [] source).trans (if_neg hne.symm)
    unfold FrameGraph.lookup
    rw [if_neg hne]
    exact (surveyed_start es target).seeks ((ofEdges es).edges.length + 1) (by simp) hmiss
  · obtain ⟨poses, way, hlength, halong⟩ := exists_way_of_lookup h
    refine ⟨poses, way, halong, fun others hothers => ?_⟩
    rw [hlength]
    exact hothers.hopsTo_le

end Surveys

end LidarSync.FrameGraph
