import Foliage.Proofs.Interpreter.Invariant

/-!
# Steering

`m.Steers s g result` lists everything that a member can do when it steers, one constructor for each way: it is lost,
at a leaf, branches, or approaches its node (`steers`). A member that steers may be turned, get another step and head
for another node. Everything else of it stays, in each of the members that replace it (`mem_steer`): its position, its
pen, the outline it records, and the step it returns to. So a property of turtles that no action ends and that does not
depend on where they are turned and on their step is kept by all members of a population (`keeps_members`).
-/

namespace Foliage

variable {K : Type} [Scalar K]

/-- A turtle that heads for a point is turned, and nothing else. -/
theorem headToward_eq (t : Turtle K) (target : Vec K) : ∃ frame, (t.headToward target).2 = { t with frame } := by
  unfold Turtle.headToward
  cases hway : (target - t.position).normalize? with
  | none => exact ⟨t.frame, by simp only [hway]⟩
  | some heading => exact ⟨t.frame.headToward heading, by simp only [hway]⟩

theorem aim_eq (m : Member K) (g : Guidance K) (target : Vec K) :
    ∃ frame stepSize, m.aim g target = { m with turtle := { m.turtle with frame, stepSize } } := by
  obtain ⟨frame, h⟩ := headToward_eq m.turtle target
  refine ⟨frame, g.leniency * (m.turtle.headToward target).1, ?_⟩
  unfold Member.aim
  simp only [h]

/-- Everything that a member can do when it steers. -/
inductive Member.Steers (m : Member K) (s : Skeleton K) (g : Guidance K) : List (Member K) × Trace K → Prop
  | lost : s.node? m.cursor = none → Steers m s g ([m], .none)
  | leaf (n : Node K) : s.node? m.cursor = some n → n.children = [] →
      Steers m s g ([{ m with turtle := { m.turtle with stepSize := m.initialStepSize } }], .none)
  | branch (n : Node K) : s.node? m.cursor = some n → n.children ≠ [] → m.arrived g n.point = true →
      Steers m s g (m.fork s g n.children, .ofEvent (.branched m.cursor n.children.length))
  | approach (n : Node K) : s.node? m.cursor = some n → n.children ≠ [] → m.arrived g n.point = false →
      Steers m s g ([m.aim g n.point], .none)

theorem steers (m : Member K) (s : Skeleton K) (g : Guidance K) : m.Steers s g (m.steer s g) := by
  unfold Member.steer
  cases hn : s.node? m.cursor with
  | none => exact .lost hn
  | some n =>
    by_cases hc : n.children = []
    · simp only [hc, List.isEmpty_nil, if_true]
      exact .leaf n hn hc
    · have hempty : ¬ n.children.isEmpty = true := by simpa using hc
      simp only [hempty]
      cases ha : m.arrived g n.point with
      | true => exact .branch n hn hc ha
      | false => exact .approach n hn hc ha

/-- A member that branches is replaced by members each of which is aimed at a child. -/
theorem mem_fork {m m' : Member K} {s : Skeleton K} {g : Guidance K} {children : List Nat}
    (h : m' ∈ m.fork s g children) :
    ∃ child ∈ children, ∃ n, s.node? child = some n ∧ m' = { m.aim g n.point with cursor := child } := by
  obtain ⟨child, hchild, h⟩ := List.mem_filterMap.mp h
  obtain ⟨n, hn, rfl⟩ := Option.map_eq_some_iff.mp h
  exact ⟨child, hchild, n, hn, rfl⟩

/-- **What steering leaves as it was.** -/
theorem mem_steer {m m' : Member K} {s : Skeleton K} {g : Guidance K} (h : m' ∈ (m.steer s g).1) :
    ∃ frame stepSize cursor, m' = ⟨{ m.turtle with frame, stepSize }, cursor, m.initialStepSize⟩ := by
  have hsteers := steers m s g
  generalize m.steer s g = result at h hsteers
  cases hsteers with
  | lost | leaf => exact ⟨_, _, _, List.mem_singleton.mp h⟩
  | branch n hn hc ha =>
    obtain ⟨child, -, n', -, rfl⟩ := mem_fork h
    obtain ⟨frame, stepSize, haim⟩ := aim_eq m g n'.point
    exact ⟨frame, stepSize, child, by rw [haim]⟩
  | approach n hn hc ha =>
    obtain ⟨frame, stepSize, haim⟩ := aim_eq m g n.point
    exact ⟨frame, stepSize, m.cursor, (List.mem_singleton.mp h).trans haim⟩

/-! ## The members of a population -/

omit [Scalar K] in
/-- What is read off traces piece by piece is read off the traces of several members one after the other. -/
theorem gather_eq_flatMap {α β : Type} (read : Trace K → List β) (hnone : read .none = [])
    (happend : ∀ s t, read (s ++ t) = read s ++ read t) (results : List (α × Trace K)) :
    read (Population.gather results) = results.flatMap fun r => read r.2 := by
  have h : ∀ trace : Trace K, read (results.foldl (fun trace r => trace ++ r.2) trace) =
      read trace ++ results.flatMap fun r => read r.2 := by
    induction results with
    | nil => simp
    | cons r results ih => intro trace; simp [ih, happend]
  rw [Population.gather, h, hnone, List.nil_append]

omit [Scalar K] in
theorem faces_gather {α : Type} (results : List (α × Trace K)) :
    (Population.gather results).faces.toList = results.flatMap fun r => r.2.faces.toList :=
  gather_eq_flatMap (fun trace => trace.faces.toList) rfl (by simp) results

theorem members_act (p : Population K) (action : Action K) :
    (p.act action).1.members = p.members.map fun m => { m with turtle := (m.turtle.act action).1 } := by
  unfold Population.act
  simp only [List.map_map]
  rfl

theorem faces_act (p : Population K) (action : Action K) :
    (p.act action).2.faces.toList = p.members.flatMap fun m => (m.turtle.act action).2.faces.toList := by
  unfold Population.act
  rw [faces_gather, List.flatMap_map]
  rfl

theorem members_steer (p : Population K) :
    p.steer.1.members = p.members.flatMap fun m => (m.steer p.skeleton p.guidance).1 := by
  unfold Population.steer
  simp only [List.flatMap_map]

/-- Steering draws nothing. -/
theorem faces_steer (p : Population K) : p.steer.2.faces.toList = [] := by
  unfold Population.steer
  rw [faces_gather, List.flatMap_map]
  refine List.flatMap_eq_nil_iff.mpr fun m _ => ?_
  have hsteers := steers m p.skeleton p.guidance
  generalize m.steer p.skeleton p.guidance = result at hsteers
  cases hsteers <;> rfl

/-- What no action, no turn and no change of the step ends is kept by the turtles of a population. -/
theorem keeps_members {P : Turtle K → Prop} (hact : ∀ t action, P t → P (t.act action).1)
    (hsteer : ∀ t frame stepSize, P t → P { t with frame, stepSize }) :
    TurtleLike.Keeps fun p : Population K => ∀ m ∈ p.members, P m.turtle where
  act p action hp m' hm' := by
    have hmem : m' ∈ (p.act action).1.members := hm'
    rw [members_act] at hmem
    obtain ⟨m, hm, rfl⟩ := List.mem_map.mp hmem
    exact hact _ action (hp m hm)
  steer f hf p hp m' hm' := by
    obtain rfl := Option.some.inj hf
    rw [members_steer] at hm'
    obtain ⟨m, hm, hm'⟩ := List.mem_flatMap.mp hm'
    obtain ⟨frame, stepSize, cursor, rfl⟩ := mem_steer hm'
    exact hsteer _ frame stepSize (hp m hm)

end Foliage
