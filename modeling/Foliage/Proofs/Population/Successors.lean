import Foliage.Proofs.PartialMap
import Foliage.Proofs.Population.Steering

/-!
# What becomes of a member

A skeleton need not be a tree for a population to steer by it: nodes may name children that do not exist, name a child
twice or form cycles, and there may be no nodes at all. `m.Becomes s g group` tells what a member becomes in every case.
Where it has lost its node it stays as it is; at a leaf it takes its first step size again; where it has arrived there is
one copy of it for each child that exists, in the order of the children; and on its way it is set on its course.

Every member becomes the members of one group, and the groups follow each other in the order of the members
(`steer_becomes`). A group has nothing that its member did not have but a course (`Member.Becomes.course`), and is empty
only where the member has arrived at a node all of whose children are missing (`Member.Becomes.eq_nil_iff`).
-/

namespace Foliage

variable {K : Type} [Scalar K]

/-- The member on its course to a node: bound to its id, headed for its point, and with a part of the way for a
step. -/
def Member.onCourse (m : Member K) (g : Guidance K) (id : Nat) (n : Node K) : Member K where
  turtle :=
    { m.turtle with
      frame := (m.turtle.headToward n.point).2.frame
      stepSize := g.leniency * (n.point - m.turtle.position).length }
  cursor := id
  initialStepSize := m.initialStepSize

/-- What a member becomes when it steers. -/
inductive Member.Becomes (s : Skeleton K) (g : Guidance K) (m : Member K) : List (Member K) → Prop
  | lost : s.node? m.cursor = none → Becomes s g m [m]
  | leaf (n : Node K) : s.node? m.cursor = some n → n.children = [] →
      Becomes s g m [{ m with turtle := { m.turtle with stepSize := m.initialStepSize } }]
  | branch (n : Node K) (group : List (Member K)) : s.node? m.cursor = some n → n.children ≠ [] →
      m.turtle.position.dist n.point ≤ g.proximityTolerance →
      List.Forall₂ (fun id m' => ∃ child, s.node? id = some child ∧ m' = m.onCourse g id child)
        (n.children.filter fun id => (s.node? id).isSome) group →
      Becomes s g m group
  | approach (n : Node K) : s.node? m.cursor = some n → n.children ≠ [] →
      ¬ m.turtle.position.dist n.point ≤ g.proximityTolerance → Becomes s g m [m.onCourse g m.cursor n]

variable {s : Skeleton K} {g : Guidance K} {m : Member K} {group : List (Member K)}

/-- A turtle that heads for a point tells how far it is. -/
theorem headToward_fst (t : Turtle K) (target : Vec K) : (t.headToward target).1 = (target - t.position).length := by
  unfold Turtle.headToward
  cases hway : (target - t.position).normalize? <;> simp only [hway]

theorem aim_eq_onCourse (m : Member K) (g : Guidance K) (id : Nat) (n : Node K) :
    { m.aim g n.point with cursor := id } = m.onCourse g id n := by
  obtain ⟨frame, hframe⟩ := headToward_eq m.turtle n.point
  unfold Member.aim Member.onCourse
  simp only [headToward_fst, hframe]

/-- The copies of a member that has arrived. -/
theorem fork_onCourse (m : Member K) (s : Skeleton K) (g : Guidance K) (children : List Nat) :
    List.Forall₂ (fun id m' => ∃ child, s.node? id = some child ∧ m' = m.onCourse g id child)
      (children.filter fun id => (s.node? id).isSome) (m.fork s g children) := by
  have hcopies := forall₂_filterMap (fun id => (s.node? id).map fun n => { m.aim g n.point with cursor := id }) children
  simp only [Option.isSome_map] at hcopies
  refine hcopies.imp fun id m' h => ?_
  obtain ⟨child, hchild, rfl⟩ := Option.map_eq_some_iff.mp h
  exact ⟨child, hchild, aim_eq_onCourse m g id child⟩

theorem becomes_of_steer (m : Member K) (s : Skeleton K) (g : Guidance K) : m.Becomes s g (m.steer s g).1 := by
  have hsteers := steers m s g
  generalize m.steer s g = result at hsteers
  cases hsteers with
  | lost hn => exact .lost hn
  | leaf n hn hc => exact .leaf n hn hc
  | branch n hn hc ha => exact .branch n _ hn hc (of_decide_eq_true ha) (fork_onCourse m s g n.children)
  | approach n hn hc ha =>
    have haim : m.aim g n.point = m.onCourse g m.cursor n := aim_eq_onCourse m g m.cursor n
    rw [haim]
    exact .approach n hn hc (of_decide_eq_false ha)

namespace Member.Becomes

/-- Whatever a member becomes differs from it in its frame, its step and its node alone. -/
theorem course (h : m.Becomes s g group) {m' : Member K} (hm' : m' ∈ group) :
    ∃ frame stepSize cursor, m' = ⟨{ m.turtle with frame, stepSize }, cursor, m.initialStepSize⟩ := by
  cases h with
  | lost | leaf | approach => exact ⟨_, _, _, List.mem_singleton.mp hm'⟩
  | branch n _ hn hc ha hcopies =>
    obtain ⟨id, -, child, -, hcopy⟩ := exists_of_forall₂ hcopies hm'
    exact ⟨_, _, _, hcopy⟩

/-- A member is lost only where all children of the node at which it has arrived are missing. -/
theorem eq_nil_iff (h : m.Becomes s g group) :
    group = [] ↔ ∃ n, s.node? m.cursor = some n ∧ n.children ≠ [] ∧
      m.turtle.position.dist n.point ≤ g.proximityTolerance ∧ ∀ id ∈ n.children, s.node? id = none := by
  cases h with
  | lost hn => simp [hn]
  | leaf n hn hc => simp [hn, hc]
  | approach n hn hc ha => simp [hn, ha]
  | branch n _ hn hc ha hcopies =>
    simp only [hn, Option.some.injEq, exists_eq_left', hc, ne_eq, not_false_eq_true, ha, true_and]
    rw [← List.length_eq_zero_iff, ← hcopies.length_eq, List.length_eq_zero_iff, List.filter_eq_nil_iff]
    simp only [Option.not_isSome_iff_eq_none]

/-- At a node with children a member either has arrived and is copied, or has not and is set on its course. -/
theorem of_children (h : m.Becomes s g group) {n : Node K} (hn : s.node? m.cursor = some n) (hc : n.children ≠ []) :
    m.turtle.position.dist n.point ≤ g.proximityTolerance ∧
        List.Forall₂ (fun id m' => ∃ child, s.node? id = some child ∧ m' = m.onCourse g id child)
          (n.children.filter fun id => (s.node? id).isSome) group ∨
      ¬ m.turtle.position.dist n.point ≤ g.proximityTolerance ∧ group = [m.onCourse g m.cursor n] := by
  cases h with
  | lost hn' =>
    rw [hn] at hn'
    cases hn'
  | leaf n' hn' hc' =>
    obtain rfl := Option.some.inj (hn.symm.trans hn')
    exact absurd hc' hc
  | branch n' _ hn' _ hnear hcopies =>
    obtain rfl := Option.some.inj (hn.symm.trans hn')
    exact .inl ⟨hnear, hcopies⟩
  | approach n' hn' _ hfar =>
    obtain rfl := Option.some.inj (hn.symm.trans hn')
    exact .inr ⟨hfar, rfl⟩

end Member.Becomes

/-- **Steering by any skeleton.** A population always has something to steer by. Whatever nodes there are, each member
becomes the members of a group, and the population that has steered consists of these groups in the order of the
members; its skeleton and its guidance stay. A member whose cursor is not a node stays as it is; at a node without
children its step alone changes, to its initial one; where it is within the tolerance of its node there is one copy for
each child that exists, in the order of the children, set on the course to that child; and otherwise it is set on the
course to its own node. All members of the group have the position, the pen, the outline and the initial step of the
member, and there are none only if the member has arrived at a node with children none of which exist. -/
theorem steer_becomes (p : Population K) :
    TurtleLike.consider? p = some p.steer ∧
    ∃ groups : List (List (Member K)), p.steer.1 = { p with members := groups.flatten } ∧
      List.Forall₂ (fun m group =>
        m.Becomes p.skeleton p.guidance group ∧
        (∀ m' ∈ group, ∃ frame stepSize cursor,
          m' = ⟨{ m.turtle with frame, stepSize }, cursor, m.initialStepSize⟩) ∧
        (group = [] ↔ ∃ n, p.skeleton.node? m.cursor = some n ∧ n.children ≠ [] ∧
          m.turtle.position.dist n.point ≤ p.guidance.proximityTolerance ∧
          ∀ id ∈ n.children, p.skeleton.node? id = none)) p.members groups := by
  refine ⟨rfl, p.members.map fun m => (m.steer p.skeleton p.guidance).1, ?_, ?_⟩
  · rw [← List.flatMap_def, ← members_steer]
    rfl
  · refine List.forall₂_map_right_iff.mpr (List.forall₂_same.mpr fun m _ => ?_)
    have hm := becomes_of_steer m p.skeleton p.guidance
    exact ⟨hm, fun m' hm' => hm.course hm', hm.eq_nil_iff⟩

/-- A member at a node that is its own child, names another child twice and a third that does not exist. -/
example :
    let s : Skeleton Float := ⟨#[⟨0, [1, 0, 7, 1]⟩, ⟨⟨1, 0, 0⟩, []⟩]⟩
    ((Population.ofTurtle s .standard (.ofConfig .standard)).steer.1.members.map Member.cursor) = [1, 0, 1] := by
  decide +kernel

end Foliage
