import Foliage.Proofs.Population.Steering
import Foliage.Proofs.Skeleton.Traversal

/-!
# Populations as cuts

The members of a population cut its skeleton between the root and the leaves: the leaves below their nodes, one member
after the other, are all leaves in the order of the traversal (`Population.Cuts`). A population begins as the cut at
the root; an action moves no member to another node, and steering replaces a node by its children or leaves it
(`cursors_of_steer`), so that every population that runs can reach or save is a cut (`population_cut`). That no two
members share a node or stand one above the other, and that there are members but no more than leaves, follows.
-/

namespace Foliage

variable {K : Type}

/-- The nodes for which the members head, in order. -/
def Population.cursors (p : Population K) : List Nat := p.members.map Member.cursor

/-- A population follows a skeleton, and its members have every leaf of it below them exactly once and in order. All of
them began with the same step. -/
structure Population.Cuts (p : Population K) (s : Skeleton K) (step : K) : Prop where
  skeleton : p.skeleton = s
  leaves : p.cursors.flatMap s.leavesBelow = s.leavesBelow Skeleton.root
  exist : ∀ id ∈ p.cursors, id < s.size
  step : ∀ m ∈ p.members, m.initialStepSize = step

open Skeleton

variable {s : Skeleton K}

/-! ## What a cut says -/

section Cut

variable {p : Population K} {step : K}

/-- No two members share a node or stand one above the other. -/
theorem Population.Cuts.apart (hs : s.Grown) (hp : p.Cuts s step) :
    p.cursors.Pairwise fun a b => a ∉ s.below b ∧ b ∉ s.below a := by
  -- each leaf is below one member only, and every node has a leaf below it
  have hnodup : (p.cursors.flatMap s.leavesBelow).Nodup := by
    rw [hp.leaves]
    exact leavesBelow_root_nodup hs
  refine (List.nodup_flatMap.mp hnodup).2.imp_of_mem fun {a b} ha hb hdisjoint => ⟨fun hab => ?_, fun hba => ?_⟩
  · obtain ⟨x, hx⟩ := List.exists_mem_of_ne_nil _ (leavesBelow_ne_nil hs (hp.exist a ha))
    exact hdisjoint hx (leavesBelow_subset hs (hp.exist b hb) hab hx)
  · obtain ⟨x, hx⟩ := List.exists_mem_of_ne_nil _ (leavesBelow_ne_nil hs (hp.exist b hb))
    exact hdisjoint (leavesBelow_subset hs (hp.exist a ha) hba hx) hx

theorem Population.Cuts.size_pos (hs : s.Grown) (hp : p.Cuts s step) : 1 ≤ p.size := by
  have hne : p.members ≠ [] := by
    intro h
    have := hp.leaves
    rw [Population.cursors, h] at this
    exact leavesBelow_ne_nil hs hs.root_lt_size this.symm
  exact List.length_pos_iff.mpr hne

theorem length_le_length_flatMap {α β : Type} {f : α → List β} {xs : List α} (h : ∀ x ∈ xs, f x ≠ []) :
    xs.length ≤ (xs.flatMap f).length := by
  induction xs with
  | nil => exact Nat.le_refl _
  | cons x xs ih =>
    have hx : 0 < (f x).length := List.length_pos_iff.mpr (h x List.mem_cons_self)
    have hxs := ih fun y hy => h y (List.mem_cons_of_mem _ hy)
    rw [List.flatMap_cons, List.length_append, List.length_cons]
    omega

theorem Population.Cuts.size_le (hs : s.Grown) (hp : p.Cuts s step) : p.size ≤ s.leafCount := by
  have h := length_le_length_flatMap fun id hid => leavesBelow_ne_nil hs (hp.exist id hid)
  rwa [hp.leaves, length_leavesBelow_root hs, Population.cursors, List.length_map] at h

end Cut

/-! ## Cuts stay cuts -/

theorem cuts_ofTurtle (hs : s.Grown) (g : Guidance K) (t : Turtle K) :
    (Population.ofTurtle s g t).Cuts s t.stepSize where
  skeleton := rfl
  leaves := List.append_nil _
  exist id hid := by
    rw [List.mem_singleton.mp hid]
    exact hs.root_lt_size
  step m hm := by rw [List.mem_singleton.mp hm]

variable [Scalar K]

theorem cursors_act (p : Population K) (action : Action K) : (p.act action).1.cursors = p.cursors := by
  simp [Population.cursors, members_act]

/-- An action leaves every member at its node and keeps the step it began with. -/
theorem cuts_act {p : Population K} {step : K} (hp : p.Cuts s step) (action : Action K) :
    (p.act action).1.Cuts s step := by
  refine ⟨hp.skeleton, by rw [cursors_act, hp.leaves], by rw [cursors_act]; exact hp.exist, fun m' hm' => ?_⟩
  rw [members_act] at hm'
  obtain ⟨m, hm, rfl⟩ := List.mem_map.mp hm'
  exact hp.step m hm

/-- The nodes of the members that replace one at a node all of whose children exist. -/
theorem cursors_of_fork {m : Member K} {g : Guidance K} {cs : List Nat} (hcs : ∀ c ∈ cs, c < s.size) :
    (m.fork s g cs).map Member.cursor = cs := by
  induction cs with
  | nil => rfl
  | cons c cs ih =>
    obtain ⟨n, hn⟩ := exists_node? (hcs c List.mem_cons_self)
    have := ih fun d hd => hcs d (List.mem_cons_of_mem _ hd)
    rw [Member.fork, List.filterMap_cons, hn]
    simpa [Member.fork] using this

/-- What steering does to the node of a member: it stays, or gives way to its children. -/
theorem cursors_of_steer (hs : s.Grown) (m : Member K) (g : Guidance K) :
    (m.steer s g).1.map Member.cursor = [m.cursor] ∨
      ∃ n, s.node? m.cursor = some n ∧ n.children ≠ [] ∧ (m.steer s g).1.map Member.cursor = n.children := by
  have hsteers := steers m s g
  generalize m.steer s g = result at hsteers ⊢
  cases hsteers with
  | lost | leaf | approach => exact .inl rfl
  | branch n hn hc ha => exact .inr ⟨n, hn, hc, cursors_of_fork fun c hc => (hs.lt_of_mem_children hn hc).2⟩

theorem initialStepSize_of_steer {m m' : Member K} {g : Guidance K} (hm : m' ∈ (m.steer s g).1) :
    m'.initialStepSize = m.initialStepSize := by
  obtain ⟨frame, stepSize, cursor, rfl⟩ := mem_steer hm
  rfl

/-- The members that replace one have its leaves below them. -/
theorem leaves_of_steer (hs : s.Grown) (m : Member K) (g : Guidance K) :
    ((m.steer s g).1.map Member.cursor).flatMap s.leavesBelow = s.leavesBelow m.cursor := by
  rcases cursors_of_steer hs m g with h | ⟨n, hn, hc, h⟩
  · rw [h, List.flatMap_singleton]
  · rw [h, leavesBelow_of_children hs hn hc]

theorem cursors_steer (p : Population K) :
    p.steer.1.cursors = p.members.flatMap fun m => (m.steer p.skeleton p.guidance).1.map Member.cursor := by
  simp [Population.cursors, members_steer, List.map_flatMap]

theorem cuts_steer (hs : s.Grown) {p : Population K} {step : K} (hp : p.Cuts s step) : p.steer.1.Cuts s step := by
  obtain ⟨skeleton, g, members⟩ := p
  obtain rfl : skeleton = s := hp.skeleton
  have hcursors := cursors_steer ⟨skeleton, g, members⟩
  refine ⟨rfl, ?_, fun id hid => ?_, fun m' hm' => ?_⟩
  · rw [hcursors, List.flatMap_assoc]
    simp only [leaves_of_steer hs]
    rw [← hp.leaves, Population.cursors, List.flatMap_map]
  · rw [hcursors] at hid
    obtain ⟨m, hm, hid⟩ := List.mem_flatMap.mp hid
    rcases cursors_of_steer hs m g with h | ⟨n, hn, -, h⟩
    · rw [h, List.mem_singleton] at hid
      rw [hid]
      exact hp.exist _ (List.mem_map_of_mem hm)
    · rw [h] at hid
      exact (hs.lt_of_mem_children hn hid).2
  · rw [members_steer] at hm'
    obtain ⟨m, hm, hm'⟩ := List.mem_flatMap.mp hm'
    rw [initialStepSize_of_steer hm', hp.step m hm]

/-- Being a cut is an invariant. -/
theorem keeps_cuts (hs : s.Grown) (step : K) : TurtleLike.Keeps fun p : Population K => p.Cuts s step where
  act _ action hp := cuts_act hp action
  steer f hf p hp := by
    obtain rfl := Option.some.inj hf
    exact cuts_steer hs hp

/-! ## Populations of a run -/

/-- **Populations are cuts of their skeletons.** Start with one member at the root of any skeleton and with nothing
saved. Behind any number of runs, the population and all that are saved have every leaf of the skeleton below them
exactly once, in the order of the traversal. Their members head for nodes that exist, no two for the same node or for
nodes one above the other; there is at least one and there are at most as many as leaves; and all of them return to the
step of the turtle at the start. -/
theorem population_cut (hs : s.Made) (g : Guidance K) (t : Turtle K)
    (runs : List (Interpreter K × List (Symbol K))) :
    (s.leavesBelow root).Perm ((List.range s.size).filter s.isLeaf) ∧
    (Machine.afterRuns ⟨Population.ofTurtle s g t, []⟩ runs).All fun p =>
      p.cursors.flatMap s.leavesBelow = s.leavesBelow root ∧
      (∀ id ∈ p.cursors, id < s.size) ∧
      (p.cursors.Pairwise fun a b => a ∉ s.below b ∧ b ∉ s.below a) ∧
      1 ≤ p.size ∧ p.size ≤ s.leafCount ∧
      ∀ m ∈ p.members, m.initialStepSize = t.stepSize := by
  have hgrown := hs.isGrown
  have hstart : Machine.All (fun p => p.Cuts s t.stepSize) ⟨Population.ofTurtle s g t, []⟩ := by
    intro p hp
    rw [List.mem_singleton.mp hp]
    exact cuts_ofTurtle hgrown g t
  refine ⟨leavesBelow_root_perm hgrown, fun p hp => ?_⟩
  have hcuts := all_afterRuns (keeps_cuts hgrown t.stepSize) hstart runs p hp
  exact ⟨hcuts.leaves, hcuts.exist, hcuts.apart hgrown, hcuts.size_pos hgrown, hcuts.size_le hgrown, hcuts.step⟩

/-- On a fork, with a save between two looks at it and more restores than saves. -/
theorem population_cut_fork :
    let s : Skeleton Float := ((Skeleton.single 0).link root ⟨-5, 0, 0⟩).link root ⟨5, 0, 0⟩
    let runs : List (Interpreter Float × List (Symbol Float)) :=
      [(.standard, [.bare .considerData, .bare .push, .bare .considerData]), (.standard, [.bare .pop, .bare .pop])]
    s.Made ∧ (Machine.afterRuns ⟨Population.ofTurtle s .standard (.ofConfig .standard), []⟩ runs).All fun p =>
      p.cursors.flatMap s.leavesBelow = s.leavesBelow root ∧ 1 ≤ p.size ∧ p.size ≤ 2 := by
  intro s runs
  have hs : s.Made := .grown (((Grown.single 0).link Nat.one_pos _).link (Nat.succ_pos 1) _)
  refine ⟨hs, fun p hp => ?_⟩
  obtain ⟨hleaves, -, -, hpos, hle, -⟩ := (population_cut hs .standard (.ofConfig .standard) runs).2 p hp
  exact ⟨hleaves, hpos, hle⟩

end Foliage
