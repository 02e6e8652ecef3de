import Foliage.Proofs.Interpreter.Operations
import Foliage.Proofs.Population.Cut
import Foliage.Proofs.Population.Steering
import Mathlib.Data.List.Perm.Basic

/-!
# Every node branches at most once

The territory of a population are the nodes at and below those for which its members head. It shrinks by exactly the
nodes at which members branch: a member that branches leaves its node behind and shares the rest of its territory among
those that replace it (`territory_steer`). At the start the territory is the whole skeleton, every node once, so over
any sequence of operations no node branches twice (`branches_once`). No member is ever lost, because a node that
branches has children.
-/

namespace Foliage

variable {K : Type}

/-- The node of an event that reports a branching. -/
def Event.branching? : Event K → Option Nat
  | .branched node _ => some node
  | _ => none

/-- The nodes at which members branched, in order. -/
def Trace.branchings (t : Trace K) : List Nat := t.events.toList.filterMap Event.branching?

/-- The nodes at and below those for which the members head. -/
def Population.territory (p : Population K) : List Nat := p.cursors.flatMap p.skeleton.below

@[simp] theorem branchings_append (s t : Trace K) : (s ++ t).branchings = s.branchings ++ t.branchings := by
  simp [Trace.branchings]

theorem branchings_gather {α : Type} (results : List (α × Trace K)) :
    (Population.gather results).branchings = results.flatMap fun r => r.2.branchings :=
  gather_eq_flatMap Trace.branchings rfl branchings_append results

open Skeleton TurtleLike

variable [Scalar K] {s : Skeleton K}

/-! ## One member -/

/-- An action is no branching. -/
theorem branchings_act (t : Turtle K) (action : Action K) : (t.act action).2.branchings = [] := by
  cases action with
  | endPoly =>
    show (if 3 ≤ t.outline.length then _ else _ : Trace K).branchings = []
    split <;> rfl
  | forward | skip | turn | startPoly | horiz | setRadius => rfl

/-- A member that steers leaves behind the node at which it branches, if it does, and nothing else of its territory. -/
theorem territory_of_steer (hs : s.Grown) (m : Member K) (g : Guidance K) :
    (m.steer s g).2.branchings ++ ((m.steer s g).1.map Member.cursor).flatMap s.below = s.below m.cursor := by
  have hsteers := steers m s g
  generalize m.steer s g = result at hsteers ⊢
  cases hsteers with
  | lost | leaf | approach => exact List.append_nil _
  | branch n hn hc ha =>
    rw [cursors_of_fork fun c hc => (hs.lt_of_mem_children hn hc).2, below_eq hs hn]
    rfl

/-- A member branches only at a node with children. -/
theorem children_of_branching {m : Member K} {g : Guidance K} {id : Nat} (h : id ∈ (m.steer s g).2.branchings) :
    ∃ n, s.node? id = some n ∧ n.children ≠ [] := by
  have hsteers := steers m s g
  generalize m.steer s g = result at h hsteers
  cases hsteers with
  | lost | leaf | approach => cases h
  | branch n hn hc ha =>
    rw [List.mem_singleton.mp h]
    exact ⟨n, hn, hc⟩

/-- A member that steers is not lost. -/
theorem steer_ne_nil (hs : s.Grown) (m : Member K) (g : Guidance K) : (m.steer s g).1 ≠ [] := by
  intro hnil
  rcases cursors_of_steer hs m g with h | ⟨n, -, hc, h⟩
  · rw [hnil] at h
    cases h
  · rw [hnil] at h
    exact hc h.symm

/-- A member that steers stays at its node or is replaced by members at children of it. -/
theorem cursor_of_mem_steer {m m' : Member K} {g : Guidance K} (h : m' ∈ (m.steer s g).1) :
    m'.cursor = m.cursor ∨ ∃ n, s.node? m.cursor = some n ∧ m'.cursor ∈ n.children := by
  have hsteers := steers m s g
  generalize m.steer s g = result at h hsteers
  cases hsteers with
  | lost | leaf => exact .inl (by rw [List.mem_singleton.mp h])
  | approach => exact .inl (by rw [List.mem_singleton.mp h]; rfl)
  | branch n hn hc ha =>
    obtain ⟨child, hchild, -, -, rfl⟩ := mem_fork h
    exact .inr ⟨n, hn, hchild⟩

/-! ## One operation -/

/-- What an operation of a population says about its skeleton, its members and their territory. -/
structure Population.Advances (p q : Population K) (branchings : List Nat) : Prop where
  skeleton : q.skeleton = p.skeleton
  guidance : q.guidance = p.guidance
  size : p.size ≤ q.size
  territory : (branchings ++ q.territory).Perm p.territory
  children : ∀ id ∈ branchings, ∃ n, p.skeleton.node? id = some n ∧ n.children ≠ []

omit [Scalar K] in
theorem Population.Advances.refl (p : Population K) : p.Advances p [] :=
  ⟨rfl, rfl, Nat.le_refl _, List.Perm.refl _, fun _ h => by cases h⟩

omit [Scalar K] in
theorem Population.Advances.trans {p q r : Population K} {xs ys : List Nat} (h : p.Advances q xs)
    (h' : q.Advances r ys) : p.Advances r (xs ++ ys) where
  skeleton := h'.skeleton.trans h.skeleton
  guidance := h'.guidance.trans h.guidance
  size := Nat.le_trans h.size h'.size
  territory := by
    rw [List.append_assoc]
    exact (h'.territory.append_left xs).trans h.territory
  children id hid := by
    rcases List.mem_append.mp hid with hid | hid
    · exact h.children id hid
    · exact h.skeleton ▸ h'.children id hid

theorem advances_act (p : Population K) (action : Action K) : p.Advances (p.act action).1 (p.act action).2.branchings := by
  have hnone : (p.act action).2.branchings = [] := by
    unfold Population.act
    rw [branchings_gather, List.flatMap_map]
    exact List.flatMap_eq_nil_iff.mpr fun m hm => branchings_act m.turtle action
  rw [hnone]
  refine ⟨rfl, rfl, ?_, ?_, fun _ h => by cases h⟩
  · simp [Population.size, members_act]
  · rw [Population.territory, cursors_act]
    exact List.Perm.refl _

theorem advances_steer {p : Population K} (hs : p.skeleton.Grown) : p.Advances p.steer.1 p.steer.2.branchings := by
  have hbranchings : p.steer.2.branchings =
      p.members.flatMap fun m => (m.steer p.skeleton p.guidance).2.branchings := by
    unfold Population.steer
    rw [branchings_gather, List.flatMap_map]
  refine ⟨rfl, rfl, ?_, ?_, ?_⟩
  · rw [Population.size, Population.size, members_steer]
    exact length_le_length_flatMap fun m _ => steer_ne_nil hs m _
  · have hbehind : p.steer.1.territory = p.members.flatMap fun m =>
        ((m.steer p.skeleton p.guidance).1.map Member.cursor).flatMap p.skeleton.below := by
      rw [Population.territory, cursors_steer, List.flatMap_assoc]
      rfl
    have hbefore : p.territory = p.members.flatMap fun m => p.skeleton.below m.cursor := List.flatMap_map ..
    simp only [hbranchings, hbehind, hbefore, ← territory_of_steer hs _ p.guidance]
    exact List.flatMap_append_perm _ _ _
  · intro id hid
    rw [hbranchings] at hid
    obtain ⟨m, -, hid⟩ := List.mem_flatMap.mp hid
    exact children_of_branching hid

theorem advances_operate {p : Population K} (hs : p.skeleton.Grown) (op : Operation K) :
    p.Advances (operate p op).1 (operate p op).2.branchings := by
  cases op with
  | act action => exact advances_act p action
  | stamp s => exact .refl p
  | consider => exact advances_steer hs

/-! ## Sequences of operations -/

theorem advances_operateAll {p : Population K} (hs : p.skeleton.Grown) (ops : List (Operation K)) :
    p.Advances (operateAll p ops).1 (operateAll p ops).2.branchings := by
  induction ops generalizing p with
  | nil => exact .refl p
  | cons op ops ih =>
    have hfirst := advances_operate hs op
    rw [operateAll, branchings_append]
    exact hfirst.trans (ih (hfirst.skeleton.symm ▸ hs))

omit [Scalar K] in
/-- Different nodes with children are no more than the skeleton has. -/
theorem length_le_of_children {ids : List Nat} (hnodup : ids.Nodup)
    (h : ∀ id ∈ ids, ∃ n, s.node? id = some n ∧ n.children ≠ []) :
    ids.length ≤ s.nodes.countP fun n => !n.children.isEmpty := by
  have hsubset : ids ⊆ (List.range s.size).filter fun id => s.nodes.toList[id]?.any fun n => !n.children.isEmpty := by
    intro id hid
    obtain ⟨n, hn, hc⟩ := h id hid
    refine List.mem_filter.mpr ⟨List.mem_range.mpr (lt_size_of_node? hn), ?_⟩
    rw [Array.getElem?_toList, ← node?, hn]
    simpa using hc
  have hle := hnodup.length_le_of_subset hsubset
  rwa [← List.countP_eq_length_filter, Skeleton.size, ← Array.length_toList, countP_range_getElem?,
    Array.countP_toList] at hle

/-- **Every node branches at most once.** Start with one member at the root of any skeleton and let it do any sequence of
operations. No operation takes members away. Steering replaces every member, in its place, by members at its node or at
children of it. Over the whole sequence the nodes at which members branch are different, and all of them have children,
so that there are no more branchings than nodes with children. -/
theorem branches_once (hs : s.Made) (g : Guidance K) (t : Turtle K) (ops : List (Operation K)) :
    let behind := fun i => (operateAll (Population.ofTurtle s g t) (ops.take i)).1
    let branchings := (operateAll (Population.ofTurtle s g t) ops).2.branchings
    (∀ i j, i ≤ j → (behind i).size ≤ (behind j).size) ∧
    (∀ i, (behind i).steer.1.members = (behind i).members.flatMap (fun m => (m.steer s g).1) ∧
      ∀ m ∈ (behind i).members, ∀ m' ∈ (m.steer s g).1,
        m'.cursor = m.cursor ∨ ∃ n, s.node? m.cursor = some n ∧ m'.cursor ∈ n.children) ∧
    branchings.Nodup ∧ branchings.length ≤ s.nodes.countP fun n => !n.children.isEmpty := by
  intro behind branchings
  have hgrown := hs.isGrown
  have hall : ∀ ops, (Population.ofTurtle s g t).Advances (operateAll (Population.ofTurtle s g t) ops).1
      (operateAll (Population.ofTurtle s g t) ops).2.branchings := advances_operateAll hgrown
  have hnodup : branchings.Nodup := by
    have hterritory : (Population.ofTurtle s g t).territory = s.below root := List.append_nil _
    have hstart := below_root_nodup hgrown
    rw [← hterritory, ← (hall ops).territory.nodup_iff] at hstart
    exact (List.nodup_append.mp hstart).1
  refine ⟨fun i j hij => ?_, fun i => ⟨?_, fun m _ m' hm' => cursor_of_mem_steer hm'⟩, hnodup,
    length_le_of_children hnodup (hall ops).children⟩
  · obtain ⟨k, rfl⟩ := Nat.exists_eq_add_of_le hij
    have hskeleton : (behind i).skeleton = s := (hall _).skeleton
    have hlater : behind (i + k) = (operateAll (behind i) ((ops.drop i).take k)).1 := by
      simp only [behind, List.take_add, operateAll_append]
    rw [hlater]
    exact (advances_operateAll (hskeleton.symm ▸ hgrown) _).size
  · rw [members_steer, (hall _).skeleton, (hall _).guidance]
    rfl

/-- On a fork: the member branches at the root when it is close enough, and there is no second branching. -/
theorem branches_once_fork :
    let s : Skeleton Float := ((Skeleton.single 0).link root ⟨-5, 0, 0⟩).link root ⟨5, 0, 0⟩
    let ops : List (Operation Float) := [.consider, .act (.forward none), .consider, .consider]
    let branchings := (operateAll (Population.ofTurtle s .standard (.ofConfig .standard)) ops).2.branchings
    s.Made ∧ branchings.Nodup ∧ branchings.length ≤ 1 := by
  intro s ops branchings
  have hs : s.Made := .grown (((Grown.single 0).link Nat.one_pos _).link (Nat.succ_pos 1) _)
  obtain ⟨-, -, hnodup, hle⟩ := branches_once hs .standard (.ofConfig .standard) ops
  exact ⟨hs, hnodup, hle⟩

end Foliage
