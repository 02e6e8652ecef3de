import Foliage.Space.Vec

/-!
# Skeletons

A tree of target points, kept as a list of nodes that name their children by position. The first node is the root.
A skeleton is grown child by child (`addChild?`), flattened from a nested description (`ofPlan`), or sampled from a
curve (`Foliage.Skeleton.Bezier`).
-/

namespace Foliage

/-- A target point and the positions of its children. -/
structure Node (K : Type) where
  point : Vec K
  children : List Nat
deriving Repr, BEq, DecidableEq

/-- A tree of target points. -/
structure Skeleton (K : Type) where
  nodes : Array (Node K)
deriving Repr, BEq

/-- The nested description of a skeleton. -/
inductive SkeletonPlan (K : Type) where
  | node (point : Vec K) (children : List (SkeletonPlan K))

namespace SkeletonPlan

variable {K : Type}

/-- The point of the topmost node. -/
def point : SkeletonPlan K → Vec K
  | .node p _ => p

/-- What hangs below the topmost node. -/
def children : SkeletonPlan K → List (SkeletonPlan K)
  | .node _ cs => cs

/-- A node without children. -/
def leaf (p : Vec K) : SkeletonPlan K := .node p []

mutual

def size : SkeletonPlan K → Nat
  | .node _ cs => 1 + sizes cs

/-- The number of nodes of several descriptions. -/
def sizes : List (SkeletonPlan K) → Nat
  | [] => 0
  | c :: cs => size c + sizes cs

end

end SkeletonPlan

namespace Skeleton

variable {K : Type}

/-- The position of the root. -/
def root : Nat := 0

/-- A skeleton of one node. -/
def single (point : Vec K) : Skeleton K := ⟨#[⟨point, []⟩]⟩

def size (s : Skeleton K) : Nat := s.nodes.size

def isEmpty (s : Skeleton K) : Bool := s.nodes.isEmpty

/-- The node at a position. -/
def node? (s : Skeleton K) (id : Nat) : Option (Node K) := s.nodes[id]?

/-- The root, if there are any nodes. -/
def root? (s : Skeleton K) : Option (Node K) := s.node? root

/-- The number of nodes without children. -/
def leafCount (s : Skeleton K) : Nat := s.nodes.countP fun n => n.children.isEmpty

/-- The skeleton with a new node at its end, which becomes the last child of the node at `parent`. -/
def link (s : Skeleton K) (parent : Nat) (point : Vec K) : Skeleton K :=
  ⟨(s.nodes.push ⟨point, []⟩).modify parent fun n => { n with children := n.children ++ [s.nodes.size] }⟩

/-- A new child of the node at `parent`, and its position. The new node is in place before its parent is looked up, so
that a node may be made its own child; there must be a node at `parent` by then. -/
def addChild? (s : Skeleton K) (parent : Nat) (point : Vec K) : Option (Skeleton K × Nat) :=
  if parent ≤ s.size then some (s.link parent point, s.size) else none

/-- The skeleton with several new children below one node, and each of their descriptions with its position, the last
one first and in front of those given. -/
def linkAll (parent : Nat) (s : Skeleton K) (pending : List (Nat × SkeletonPlan K)) :
    List (SkeletonPlan K) → Skeleton K × List (Nat × SkeletonPlan K)
  | [] => (s, pending)
  | c :: cs => linkAll parent (s.link parent c.point) ((s.size, c) :: pending) cs

/-- The number of nodes that pending descriptions have. -/
def pendingSize : List (Nat × SkeletonPlan K) → Nat
  | [] => 0
  | p :: ps => p.2.size + pendingSize ps

theorem pendingSize_linkAll (parent : Nat) (s : Skeleton K) (pending : List (Nat × SkeletonPlan K))
    (cs : List (SkeletonPlan K)) :
    pendingSize (linkAll parent s pending cs).2 = SkeletonPlan.sizes cs + pendingSize pending := by
  induction cs generalizing s pending with
  | nil => simp [linkAll, SkeletonPlan.sizes]
  | cons c cs ih =>
    rw [linkAll, ih]
    simp only [SkeletonPlan.sizes, pendingSize]
    omega

/-- The skeleton with everything below the pending nodes added to it. The first pending node is served first. -/
def fill (s : Skeleton K) : List (Nat × SkeletonPlan K) → Skeleton K
  | [] => s
  | (id, plan) :: pending =>
    let grown := linkAll id s pending plan.children
    fill grown.1 grown.2
termination_by pending => pendingSize pending
decreasing_by
  rw [pendingSize_linkAll]
  cases plan
  simp only [pendingSize, SkeletonPlan.size, SkeletonPlan.children]
  omega

/-- The skeleton that a nested description stands for. The children of a node stand together and in order. -/
def ofPlan (plan : SkeletonPlan K) : Skeleton K := fill (single plan.point) [(root, plan)]

end Skeleton

end Foliage
