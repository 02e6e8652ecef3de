import Foliage.Skeleton
import Foliage.Turtle

/-!
# Populations

Turtles that grow along a shared skeleton. Every action is done by every member; only steering treats them differently.
A member is bound to a node. When it steers, a member far from its node heads for it, and a member that has arrived is
replaced by one member per child of the node, each headed for its child.
-/

namespace Foliage

/-- How members follow the skeleton. -/
structure Guidance (K : Type) where
  /-- A member this close to its node has arrived. -/
  proximityTolerance : K
  /-- The part of the remaining way that becomes the step of a member. -/
  leniency : K
deriving Repr

/-- Guidance with a small tolerance, halving the way at every step. -/
def Guidance.standard {K : Type} [Scalar K] : Guidance K := ⟨0.1, 0.5⟩

/-- A turtle bound to a node. -/
structure Member (K : Type) where
  turtle : Turtle K
  /-- The node for which the turtle heads. -/
  cursor : Nat
  /-- The step to which the turtle returns at a leaf of the skeleton. -/
  initialStepSize : K
deriving Repr, BEq, DecidableEq

/-- Turtles in order, their skeleton and how they follow it. -/
structure Population (K : Type) where
  skeleton : Skeleton K
  guidance : Guidance K
  members : List (Member K)

namespace Member

variable {K : Type} [Scalar K]

/-- A member after its turtle has done an action. -/
def act (m : Member K) (action : Action K) : Member K × Trace K :=
  let (turtle, trace) := m.turtle.act action
  ({ m with turtle }, trace)

/-- A member with its turtle headed for a point and with a step of a part of the way. -/
def aim (m : Member K) (g : Guidance K) (target : Vec K) : Member K :=
  let (distance, turtle) := m.turtle.headToward target
  { m with turtle := { turtle with stepSize := g.leniency * distance } }

/-- The member is close enough to a point. -/
def arrived (m : Member K) (g : Guidance K) (target : Vec K) : Bool :=
  decide (m.turtle.position.dist target ≤ g.proximityTolerance)

/-- The members that replace one at a node with the given children: one for each child that exists. -/
def fork (m : Member K) (s : Skeleton K) (g : Guidance K) (children : List Nat) : List (Member K) :=
  children.filterMap fun child => (s.node? child).map fun n => { m.aim g n.point with cursor := child }

/-- The members that replace one after it has steered. -/
def steer (m : Member K) (s : Skeleton K) (g : Guidance K) : List (Member K) × Trace K :=
  match s.node? m.cursor with
  | none => ([m], .none)
  | some node =>
    if node.children.isEmpty then
      ([{ m with turtle := { m.turtle with stepSize := m.initialStepSize } }], .none)
    else if m.arrived g node.point then
      (m.fork s g node.children, .ofEvent (.branched m.cursor node.children.length))
    else ([m.aim g node.point], .none)

end Member

namespace Population

variable {K : Type}

/-- One member, bound to the root. -/
def ofTurtle (skeleton : Skeleton K) (guidance : Guidance K) (turtle : Turtle K) : Population K :=
  ⟨skeleton, guidance, [⟨turtle, Skeleton.root, turtle.stepSize⟩]⟩

def size (p : Population K) : Nat := p.members.length

def isEmpty (p : Population K) : Bool := p.members.isEmpty

/-- The traces of several members, in their order. -/
def gather {α : Type} (results : List (α × Trace K)) : Trace K :=
  results.foldl (fun trace r => trace ++ r.2) .none

variable [Scalar K]

/-- The population after every member has done an action. -/
def act (p : Population K) (action : Action K) : Population K × Trace K :=
  let results := p.members.map fun m => m.act action
  ({ p with members := results.map Prod.fst }, gather results)

/-- The faces of a stamp at the pose of every member. -/
def stamp? (p : Population K) (s : Stamp K) : Option (List (Face K)) :=
  (p.members.mapM fun (m : Member K) => m.turtle.stamp? s).map List.flatten

/-- The population after every member has steered. -/
def steer (p : Population K) : Population K × Trace K :=
  let results := p.members.map fun m => m.steer p.skeleton p.guidance
  ({ p with members := results.flatMap Prod.fst }, gather results)

end Population

end Foliage
