import LidarSync.Geometry.Placement
import LidarSync.Keyed

/-!
# Frames and the transforms between them

Static transforms connect frames in both directions. `FrameGraph.lookup` finds the pose that takes
points of one frame to another by a breadth-first search, so along a path with the fewest
transforms; among those the transforms listed first win.
-/

namespace LidarSync

/-- For each frame its neighbours, in the order in which they were connected, each with the pose
that takes its points to the frame. -/
structure FrameGraph (α : Type) where
  edges : List (String × List (String × Pose α))

namespace FrameGraph

variable {α : Type}

def empty : FrameGraph α := ⟨[]⟩

def neighbours (g : FrameGraph α) (frame : String) : List (String × Pose α) :=
  (g.edges.lookup frame).getD []

def addEdge (frame next : String) (pose : Pose α) :
    List (String × List (String × Pose α)) → List (String × List (String × Pose α))
  | [] => [(frame, [(next, pose)])]
  | (f, ns) :: rest =>
    if f = frame then (f, ns ++ [(next, pose)]) :: rest
    else (f, ns) :: addEdge frame next pose rest

def frames (g : FrameGraph α) : List String := ascending (g.edges.map Prod.fst)

variable [Scalar α]

def connect (g : FrameGraph α) (parent child : String) (pose : Pose α) : FrameGraph α :=
  ⟨addEdge child parent pose.inverse (addEdge parent child pose g.edges)⟩

/-- The graph of a list of transforms from child to parent. -/
def ofEdges (es : List (String × String × Pose α)) : FrameGraph α :=
  es.foldl (fun g (parent, child, pose) => g.connect parent child pose) empty

/-- A frame that the search has reached, with the pose that takes its points to the target. -/
abbrev Reached (α : Type) := String × Pose α

def isReached (found : List (Reached α)) (frame : String) : Bool := (found.lookup frame).isSome

/-- The neighbours of a frame that the search has not reached, the first of each name. -/
def freshNeighbours (g : FrameGraph α) (found : List (Reached α)) (here : Reached α) :
    List (Reached α) :=
  (g.neighbours here.1).foldl
    (fun fresh (next, pose) =>
      if isReached found next || isReached fresh next then fresh
      else fresh ++ [(next, here.2 * pose)])
    []

/-- Visits the frames in the queue and those reached from them; the answer lists all frames
reached, in the order in which they were. Every frame is visited once at most, so as many visits as
there are frames suffice. -/
def search (g : FrameGraph α) :
    Nat → List (Reached α) → List (Reached α) → List (Reached α)
  | 0, found, _ => found
  | _ + 1, found, [] => found
  | visits + 1, found, next :: queue =>
    let fresh := g.freshNeighbours found next
    search g visits (found ++ fresh) (queue ++ fresh)

/-- All frames connected with a target, each with the pose that takes its points to the target. -/
def connected (g : FrameGraph α) (target : String) : List (Reached α) :=
  let start := [(target, Pose.identity)]
  g.search (g.edges.length + 1) start start

/-- The pose that takes points of a source frame to a target frame, if the two are connected. -/
def lookup (g : FrameGraph α) (target source : String) : Option (Pose α) :=
  if target = source then some Pose.identity
  else (g.connected target).lookup source

end FrameGraph

def FrameGraph.ofTransforms (ts : List StaticTransform) : FrameGraph Float :=
  .ofEdges (ts.map fun t => (t.parent, t.child, t.placement.toPose))

/-- Why a cloud cannot be brought into a frame. -/
inductive ReprojectFault where
  | cloud (frame : String) (fault : CloudFault)
  | noConnection (target source : String)

def ReprojectFault.message : ReprojectFault → String
  | cloud frame fault => s!"malformed cloud in frame '{frame}': {fault.message}"
  | noConnection target source =>
    s!"cannot resolve transform from '{source}' to '{target}': "
      ++ "no static transform connects the frames"

/-- The same cloud in a target frame. One that is there already is left as it is. -/
def Cloud.reproject (g : FrameGraph Float) (target : String) (c : Cloud) :
    Except ReprojectFault Cloud :=
  if c.frame = target then .ok c
  else match g.lookup target c.frame with
    | none => .error (.noConnection target c.frame)
    | some pose =>
      match c.moved pose with
      | .error e => .error (.cloud c.frame e)
      | .ok moved => .ok { moved with header := { moved.header with frame := target } }

/-- What brings clouds into a frame and moves them. Faults are of a type of its own. -/
structure Transformer (ε : Type) where
  reproject : String → Cloud → Except ε Cloud
  move : Pose Float → Cloud → Except ε Cloud

/-- The transformer that moves clouds point by point and finds frames in a graph. -/
def FrameGraph.transformer (g : FrameGraph Float) : Transformer ReprojectFault where
  reproject target c := c.reproject g target
  move pose c := (c.moved pose).mapError (.cloud c.frame)

end LidarSync
