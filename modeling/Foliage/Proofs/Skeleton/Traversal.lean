import Foliage.Proofs.Skeleton.Growth
import Mathlib.Data.List.Nodup

/-!
# Depth first

`s.below id` lists the nodes at and below a position, depth first and children in order, and `s.leavesBelow id` those
of them that have no children. In a grown skeleton the traversal from the root meets every node exactly once
(`count_below_root`), so that the leaves below the root are all leaves (`leavesBelow_root_perm`); the leaves below a
node with children are those below its children, one child after the other (`leavesBelow_of_children`), and there is
at least one below every node.
-/

namespace Foliage

variable {K : Type}

namespace Skeleton

/-- The nodes at and below a position, depth first. Only children behind their parent are followed; in a grown
skeleton these are all (`below_eq`). -/
def below (s : Skeleton K) (id : Nat) : List Nat :=
  match _h : s.node? id with
  | none => []
  | some n => id :: n.children.flatMap fun child => if _hc : id < child then below s child else []
termination_by s.size - id
decreasing_by
  have : id < s.size := lt_size_of_node? _h
  omega

/-- The node at a position has no children. -/
def isLeaf (s : Skeleton K) (id : Nat) : Bool := (s.node? id).any fun n => n.children.isEmpty

/-- The leaves at and below a position, depth first. -/
def leavesBelow (s : Skeleton K) (id : Nat) : List Nat := (s.below id).filter s.isLeaf

end Skeleton

open Skeleton

variable {s : Skeleton K} {n : Node K} {id parent child : Nat} {point : Vec K}

/-! ## The nodes below a node -/

theorem below_eq (hs : s.Grown) (hn : s.node? id = some n) : s.below id = id :: n.children.flatMap s.below := by
  rw [below]
  split
  · rename_i h
    rw [hn] at h
    cases h
  · rename_i m h
    obtain rfl := Option.some.inj (hn.symm.trans h)
    refine congrArg (id :: ·) (List.flatMap_congr fun c hc => ?_)
    exact dif_pos (hs.lt_of_mem_children hn hc).1

/-- What holds of a node whenever it holds of its children holds of all nodes. -/
theorem Skeleton.Grown.below_induction (hs : s.Grown) {P : Nat → Prop}
    (h : ∀ id n, s.node? id = some n → (∀ c ∈ n.children, P c) → P id) (hid : id < s.size) : P id := by
  -- children stand behind their parent, so the distance to the end falls on the way down
  obtain ⟨k, hk⟩ : ∃ k, k = s.size - id := ⟨_, rfl⟩
  induction k using Nat.strongRecOn generalizing id with
  | ind k ih =>
    obtain ⟨n, hn⟩ := exists_node? hid
    refine h id n hn fun c hc => ?_
    obtain ⟨h₁, h₂⟩ := hs.lt_of_mem_children hn hc
    exact ih (s.size - c) (by omega) h₂ rfl

theorem mem_below_self (hs : s.Grown) (hid : id < s.size) : id ∈ s.below id := by
  obtain ⟨n, hn⟩ := exists_node? hid
  rw [below_eq hs hn]
  exact List.mem_cons_self

/-- What is below a node below another is below that one. -/
theorem below_subset (hs : s.Grown) (hid : id < s.size) (hc : child ∈ s.below id) : s.below child ⊆ s.below id := by
  revert hc
  refine hs.below_induction (P := fun id => child ∈ s.below id → s.below child ⊆ s.below id) ?_ hid
  intro id n hn ih hc
  rw [below_eq hs hn] at hc
  rcases List.mem_cons.mp hc with rfl | hc
  · exact List.Subset.refl _
  · obtain ⟨c, hcn, hc⟩ := List.mem_flatMap.mp hc
    rw [below_eq hs hn]
    exact fun x hx => List.mem_cons_of_mem _ (List.mem_flatMap.mpr ⟨c, hcn, ih c hcn hc hx⟩)

/-! ## Every node is met once -/

/-- Counts in a concatenation whose parts change by what is counted in them. -/
theorem count_flatMap_add {cs : List Nat} {f g : Nat → List Nat} {x y z : Nat}
    (h : ∀ c ∈ cs, (f c).count x = (g c).count x + if x = y then (g c).count z else 0) :
    (cs.flatMap f).count x = (cs.flatMap g).count x + if x = y then (cs.flatMap g).count z else 0 := by
  induction cs with
  | nil => simp
  | cons c cs ih =>
    have hc := h c List.mem_cons_self
    have hcs := ih fun c hc => h c (List.mem_cons_of_mem _ hc)
    simp only [List.flatMap_cons, List.count_append, hc, hcs]
    split <;> omega

/-- A new node is met wherever its parent is, and the others where they were. -/
theorem count_below_link (hs : s.Grown) (hp : parent < s.size) (hid : id < s.size) (x : Nat) :
    ((s.link parent point).below id).count x =
      (s.below id).count x + if x = s.size then (s.below id).count parent else 0 := by
  have hs' := hs.link hp point
  refine hs.below_induction (P := fun id => ((s.link parent point).below id).count x =
    (s.below id).count x + if x = s.size then (s.below id).count parent else 0) ?_ hid
  intro id n hn ih
  have hchildren := count_flatMap_add ih
  have hnew : (s.link parent point).below s.size = [s.size] := below_eq hs' (node?_link_size hp)
  have hn' := node?_link_of_lt (lt_size_of_node? hn) parent point
  rw [hn, Option.map_some] at hn'
  rw [below_eq hs hn, below_eq hs' hn']
  by_cases hpar : parent = id
  -- the new node is the last child here, and is met once for the node itself
  · simp only [if_pos hpar, List.flatMap_append, List.flatMap_singleton, List.count_cons, List.count_append, hnew,
      List.count_nil, hchildren]
    split <;> simp_all <;> omega
  · simp only [if_neg hpar, List.count_cons, hchildren]
    split <;> simp_all [Ne.symm hpar]
    omega

/-- **The traversal from the root meets every node exactly once.** -/
theorem count_below_root (hs : s.Grown) (x : Nat) : (s.below root).count x = if x < s.size then 1 else 0 := by
  induction hs generalizing x with
  | single point =>
    have h : (Skeleton.single point).below root = [root] :=
      below_eq (n := ⟨point, []⟩) (.single point) rfl
    rw [h, size_single]
    cases x <;> simp [root]
  | @addChild s t parent new point hs hp h ih =>
    obtain ⟨rfl, -⟩ := link_of_addChild? h
    rw [count_below_link hs hp hs.root_lt_size, ih, ih, size_link, if_pos hp]
    split <;> split <;> split <;> omega

theorem below_root_perm (hs : s.Grown) : (s.below root).Perm (List.range s.size) := by
  refine List.perm_iff_count.mpr fun x => ?_
  rw [count_below_root hs, List.nodup_range.count]
  simp only [List.mem_range]

theorem below_root_nodup (hs : s.Grown) : (s.below root).Nodup := (below_root_perm hs).nodup_iff.mpr List.nodup_range

/-! ## The leaves below a node -/

/-- The leaves below a node with children are those below its children. -/
theorem leavesBelow_of_children (hs : s.Grown) (hn : s.node? id = some n) (hc : n.children ≠ []) :
    s.leavesBelow id = n.children.flatMap s.leavesBelow := by
  have hid : ¬ s.isLeaf id = true := by simp [isLeaf, hn, hc]
  rw [leavesBelow, below_eq hs hn, List.filter_cons_of_neg hid, List.filter_flatMap]
  rfl

/-- Below every node there is a leaf. -/
theorem leavesBelow_ne_nil (hs : s.Grown) (hid : id < s.size) : s.leavesBelow id ≠ [] := by
  refine hs.below_induction (P := fun id => s.leavesBelow id ≠ []) ?_ hid
  intro id n hn ih
  cases hc : n.children with
  | nil =>
    have hleaf : s.isLeaf id = true := by simp [isLeaf, hn, hc]
    have hself := mem_below_self hs (lt_size_of_node? hn)
    exact List.ne_nil_of_mem (List.mem_filter.mpr ⟨hself, hleaf⟩)
  | cons c cs =>
    rw [leavesBelow_of_children hs hn (by simp [hc]), hc, List.flatMap_cons]
    exact fun h => ih c (by simp [hc]) (List.append_eq_nil_iff.mp h).1

theorem leavesBelow_subset (hs : s.Grown) (hid : id < s.size) (hc : child ∈ s.below id) :
    s.leavesBelow child ⊆ s.leavesBelow id := by
  intro x hx
  obtain ⟨hx, hleaf⟩ := List.mem_filter.mp hx
  exact List.mem_filter.mpr ⟨below_subset hs hid hc hx, hleaf⟩

/-- The leaves below the root are all leaves. -/
theorem leavesBelow_root_perm (hs : s.Grown) : (s.leavesBelow root).Perm ((List.range s.size).filter s.isLeaf) :=
  (below_root_perm hs).filter _

theorem leavesBelow_root_nodup (hs : s.Grown) : (s.leavesBelow root).Nodup := (below_root_nodup hs).filter _

theorem countP_range_getElem? {α : Type} (p : α → Bool) (xs : List α) :
    (List.range xs.length).countP (fun i => xs[i]?.any p) = xs.countP p := by
  induction xs with
  | nil => rfl
  | cons x xs ih =>
    rw [List.length_cons, List.range_succ_eq_map, List.countP_cons, List.countP_map, List.countP_cons, ← ih]
    rfl

/-- There are as many leaves below the root as the skeleton has. -/
theorem length_leavesBelow_root (hs : s.Grown) : (s.leavesBelow root).length = s.leafCount := by
  rw [(leavesBelow_root_perm hs).length_eq, ← List.countP_eq_length_filter, leafCount, ← Array.countP_toList]
  have hleaf : s.isLeaf = fun i => s.nodes.toList[i]?.any fun n => n.children.isEmpty := by
    funext i
    rw [isLeaf, node?, Array.getElem?_toList]
  rw [hleaf]
  exact countP_range_getElem? _ s.nodes.toList

end Foliage
