import Foliage.Proofs.PartialMap
import Foliage.Proofs.Skeleton.Traversal
import Mathlib.Algebra.GroupWithZero.Nat
import Mathlib.Data.Prod.Basic

/-!
# Flattened descriptions

`s.plan? id` reads the nested description back that the nodes at and below a position stand for. A description that is
flattened is read back from the root as it was (`flattened_plan`): the nodes that wait to be filled stand for nothing
but themselves, each waits once (`Waiting`), and filling one touches it and new nodes only. Every node but the root
stands once in all lists of children, in that of a node in front of it, as in every grown skeleton
(`count_childIds`); the nodes and leaves of the skeleton are as many as those of the description.
-/

namespace Foliage

variable {K : Type}

/-! ## Reading a description back -/

namespace SkeletonPlan

mutual

/-- The number of nodes without children. -/
def leafCount : SkeletonPlan K → Nat
  | .node _ cs => if cs.isEmpty then 1 else leafCounts cs

/-- The number of nodes without children of several descriptions. -/
def leafCounts : List (SkeletonPlan K) → Nat
  | [] => 0
  | c :: cs => leafCount c + leafCounts cs

end

end SkeletonPlan

namespace Skeleton

/-- The description that the node at a position stands for: its point, and what its children stand for, in order. There
is none when there is no node, or when a child does not stand behind its parent. -/
def plan? (s : Skeleton K) (id : Nat) : Option (SkeletonPlan K) :=
  match _h : s.node? id with
  | none => none
  | some n => (n.children.mapM fun child => if _hc : id < child then plan? s child else none).map (.node n.point)
termination_by s.size - id
decreasing_by
  have : id < s.size := lt_size_of_node? _h
  omega

/-- The entries of all lists of children. -/
def childIds (s : Skeleton K) : List Nat := s.nodes.toList.flatMap Node.children

end Skeleton

open Skeleton

variable {s : Skeleton K} {n : Node K} {id parent : Nat} {point : Vec K}

theorem plan?_eq (hs : s.Grown) (hn : s.node? id = some n) :
    s.plan? id = (n.children.mapM s.plan?).map (.node n.point) := by
  rw [plan?]
  split
  · rename_i h
    rw [hn] at h
    cases h
  · rename_i m h
    obtain rfl := Option.some.inj (hn.symm.trans h)
    rw [mapM_congr fun c hc => dif_pos (hs.lt_of_mem_children hn hc).1]

/-! ## Several new children -/

section LinkAll

variable {pending : List (Nat × SkeletonPlan K)} {cs : List (SkeletonPlan K)}

theorem size_linkAll (parent : Nat) (s : Skeleton K) (pending : List (Nat × SkeletonPlan K))
    (cs : List (SkeletonPlan K)) : (linkAll parent s pending cs).1.size = s.size + cs.length := by
  induction cs generalizing s pending with
  | nil => rfl
  | cons c cs ih =>
    rw [linkAll, ih, size_link, List.length_cons]
    omega

theorem pending_linkAll (parent : Nat) (s : Skeleton K) (pending : List (Nat × SkeletonPlan K))
    (cs : List (SkeletonPlan K)) :
    (linkAll parent s pending cs).2 = ((cs.zipIdx s.size).map Prod.swap).reverse ++ pending := by
  induction cs generalizing s pending with
  | nil => rfl
  | cons c cs ih => simp [linkAll, ih]

theorem node?_linkAll_of_ne (hid : id < s.size) (hne : id ≠ parent) :
    (linkAll parent s pending cs).1.node? id = s.node? id := by
  induction cs generalizing s pending with
  | nil => rfl
  | cons c cs ih =>
    have hlink : (s.link parent c.point).node? id = s.node? id := by
      simp [node?_link_of_lt hid, Ne.symm hne]
    rw [linkAll, ih (by rw [size_link]; omega), hlink]

theorem node?_linkAll_parent (hn : s.node? parent = some n) :
    (linkAll parent s pending cs).1.node? parent =
      some { n with children := n.children ++ List.range' s.size cs.length } := by
  induction cs generalizing s n pending with
  | nil => simpa [linkAll] using hn
  | cons c cs ih =>
    have hone := node?_link_of_lt (lt_size_of_node? hn) parent c.point
    rw [hn, Option.map_some, if_pos rfl] at hone
    rw [linkAll, ih hone, size_link, List.length_cons, List.range'_succ, List.append_assoc, List.singleton_append]

theorem node?_linkAll_new (hp : parent < s.size) {k : Nat} {c : SkeletonPlan K} (hk : cs[k]? = some c) :
    (linkAll parent s pending cs).1.node? (s.size + k) = some ⟨c.point, []⟩ := by
  induction cs generalizing s pending k with
  | nil => cases hk
  | cons d cs ih =>
    cases k with
    | zero =>
      obtain rfl := Option.some.inj hk
      rw [linkAll, node?_linkAll_of_ne (by rw [size_link]; omega) (by omega)]
      exact node?_link_size hp
    | succ k =>
      have hlink : parent < (s.link parent d.point).size := by rw [size_link]; omega
      have hnext : s.size + (k + 1) = (s.link parent d.point).size + k := by rw [size_link]; omega
      rw [linkAll, hnext]
      exact ih hlink hk

end LinkAll

/-! ## Filling -/

/-- The nodes that wait to be filled have their points and no children yet, and each waits once. -/
structure Waiting (s : Skeleton K) (pending : List (Nat × SkeletonPlan K)) : Prop where
  bare : ∀ x ∈ pending, s.node? x.1 = some ⟨x.2.point, []⟩
  nodup : (pending.map Prod.fst).Nodup

section Fill

variable {plan : SkeletonPlan K} {pending : List (Nat × SkeletonPlan K)}

/-- The positions that wait after the children of a node are in place. -/
theorem ids_linkAll (parent : Nat) (s : Skeleton K) (pending : List (Nat × SkeletonPlan K))
    (cs : List (SkeletonPlan K)) :
    (linkAll parent s pending cs).2.map Prod.fst =
      (List.range' s.size cs.length).reverse ++ pending.map Prod.fst := by
  simp [pending_linkAll, Function.comp_def]

theorem mem_linkAll {cs : List (SkeletonPlan K)} {x : Nat × SkeletonPlan K} :
    x ∈ (linkAll parent s pending cs).2 ↔ (∃ k, x.1 = s.size + k ∧ cs[k]? = some x.2) ∨ x ∈ pending := by
  obtain ⟨i, c⟩ := x
  have hswap : (i, c) ∈ (cs.zipIdx s.size).map Prod.swap ↔ (c, i) ∈ cs.zipIdx s.size :=
    List.mem_map_of_injective Prod.swap_injective (a := (c, i))
  rw [pending_linkAll, List.mem_append, List.mem_reverse, hswap, List.mem_zipIdx_iff_le_and_getElem?_sub]
  refine or_congr_left ⟨fun ⟨hle, hc⟩ => ⟨i - s.size, by simp only; omega, hc⟩, ?_⟩
  rintro ⟨k, hi, hc⟩
  obtain rfl : i = s.size + k := hi
  exact ⟨Nat.le_add_right _ _, by rwa [Nat.add_sub_cancel_left]⟩

theorem not_mem_ids_linkAll (hlt : id < s.size) (hid : id ∉ pending.map Prod.fst) (parent : Nat)
    (cs : List (SkeletonPlan K)) : id ∉ (linkAll parent s pending cs).2.map Prod.fst := by
  rw [ids_linkAll, List.mem_append, List.mem_reverse, List.mem_range'_1]
  rintro (⟨hle, -⟩ | hmem)
  · omega
  · exact hid hmem

theorem Waiting.linkAll (h : Waiting s ((id, plan) :: pending)) :
    Waiting (linkAll id s pending plan.children).1 (linkAll id s pending plan.children).2 := by
  have hid : id < s.size := lt_size_of_node? (h.bare _ List.mem_cons_self)
  obtain ⟨hnew, hnodup⟩ := List.nodup_cons.mp h.nodup
  have hold : ∀ x ∈ pending, s.node? x.1 = some ⟨x.2.point, []⟩ := fun x hx => h.bare x (List.mem_cons_of_mem _ hx)
  constructor
  · intro x hx
    rcases mem_linkAll.mp hx with ⟨k, hk, hc⟩ | hx
    · rw [hk]
      exact node?_linkAll_new hid hc
    · have hne : x.1 ≠ id := fun e => hnew (e ▸ List.mem_map_of_mem hx : id ∈ pending.map Prod.fst)
      rw [node?_linkAll_of_ne (lt_size_of_node? (hold x hx)) hne, hold x hx]
  · rw [ids_linkAll]
    refine List.nodup_append.mpr ⟨List.nodup_reverse.mpr List.nodup_range', hnodup, ?_⟩
    rintro a ha b hb rfl
    obtain ⟨x, hx, rfl⟩ := List.mem_map.mp hb
    have := lt_size_of_node? (hold x hx)
    rw [List.mem_reverse, List.mem_range'_1] at ha
    omega

theorem mapM_range' {α : Type} {f : Nat → Option α} {start : Nat} {xs : List α}
    (h : ∀ k x, xs[k]? = some x → f (start + k) = some x) : (List.range' start xs.length).mapM f = some xs := by
  refine mapM_eq_some_iff.mpr (List.forall₂_of_length_eq_of_get List.length_range' fun k hk hk' => ?_)
  simpa using h k xs[k] (List.getElem?_eq_getElem hk')

/-- **Filling.** A filled skeleton stands for what was waiting at each position, and has its other nodes as before. -/
theorem plan?_fill (hs : s.Grown) (h : Waiting s pending) :
    (∀ x ∈ pending, (fill s pending).plan? x.1 = some x.2) ∧
      ∀ id < s.size, id ∉ pending.map Prod.fst → (fill s pending).node? id = s.node? id := by
  induction s, pending using fill.induct with
  | case1 s => exact ⟨fun x hx => absurd hx List.not_mem_nil, fun id _ _ => by rw [fill]⟩
  | case2 s id plan pending grown ih =>
    have hpending : ∀ x ∈ (id, plan) :: pending, x.1 < s.size := fun x hx => lt_size_of_node? (h.bare x hx)
    have hgrown := grown_linkAll hs (hpending _ List.mem_cons_self)
      (fun x hx => hpending x (List.mem_cons_of_mem _ hx)) plan.children
    obtain ⟨hplans, hnodes⟩ := ih hgrown.1 h.linkAll
    have hkept : ∀ other < s.size, other ∉ pending.map Prod.fst →
        (fill grown.1 grown.2).node? other = grown.1.node? other := fun other hlt hother =>
      hnodes other (by rw [size_linkAll]; omega) (not_mem_ids_linkAll hlt hother _ _)
    rw [fill]
    constructor
    · intro x hx
      rcases List.mem_cons.mp hx with rfl | hx
      -- the children that the node has now are read back one by one
      · have hid : (fill grown.1 grown.2).node? id =
            some ⟨plan.point, List.range' s.size plan.children.length⟩ :=
          (hkept id (hpending _ List.mem_cons_self) (List.nodup_cons.mp h.nodup).1).trans
            (node?_linkAll_parent (h.bare _ List.mem_cons_self))
        have hchildren : ∀ k c, plan.children[k]? = some c → (fill grown.1 grown.2).plan? (s.size + k) = some c :=
          fun k c hc => hplans (s.size + k, c) (mem_linkAll.mpr (.inl ⟨k, rfl, hc⟩))
        have hplan := plan?_eq (grown_fill hgrown.1 hgrown.2) hid
        rw [mapM_range' hchildren] at hplan
        rw [hplan]
        cases plan
        rfl
      · exact hplans x (mem_linkAll.mpr (.inr hx))
    · intro other hlt hother
      rw [List.map_cons, List.mem_cons, not_or] at hother
      rw [hkept other hlt hother.2, node?_linkAll_of_ne hlt hother.1]

theorem plan?_ofPlan (plan : SkeletonPlan K) : (ofPlan plan).plan? root = some plan := by
  have hwaiting : Waiting (single plan.point) [(root, plan)] :=
    ⟨fun x hx => by rw [List.mem_singleton.mp hx]; rfl, List.nodup_singleton _⟩
  exact (plan?_fill (.single _) hwaiting).1 _ List.mem_cons_self

end Fill

/-! ## Counting nodes -/

theorem sizes_eq_sum (plans : List (SkeletonPlan K)) :
    SkeletonPlan.sizes plans = (plans.map SkeletonPlan.size).sum := by
  induction plans with
  | nil => rfl
  | cons p plans ih => rw [SkeletonPlan.sizes, ih, List.map_cons, List.sum_cons]

theorem leafCounts_eq_sum (plans : List (SkeletonPlan K)) :
    SkeletonPlan.leafCounts plans = (plans.map SkeletonPlan.leafCount).sum := by
  induction plans with
  | nil => rfl
  | cons p plans ih => rw [SkeletonPlan.leafCounts, ih, List.map_cons, List.sum_cons]

theorem length_flatMap_of_forall₂ {α : Type} {f : Nat → Option α} {g : Nat → List Nat} {count : α → Nat}
    {cs : List Nat} {xs : List α} (h : ∀ c ∈ cs, ∀ x, f c = some x → (g c).length = count x)
    (hxs : List.Forall₂ (fun c x => f c = some x) cs xs) : (cs.flatMap g).length = (xs.map count).sum := by
  induction hxs with
  | nil => rfl
  | @cons c x cs xs hx _ ih =>
    rw [List.forall_mem_cons] at h
    rw [List.flatMap_cons, List.length_append, h.1 x hx, ih h.2, List.map_cons, List.sum_cons]

/-- Below a node that stands for a description there are as many nodes and as many leaves as it has. -/
theorem length_below_of_plan? (hs : s.Grown) (hid : id < s.size) {plan : SkeletonPlan K}
    (h : s.plan? id = some plan) :
    (s.below id).length = plan.size ∧ (s.leavesBelow id).length = plan.leafCount := by
  revert plan
  refine hs.below_induction (P := fun id => ∀ {plan : SkeletonPlan K}, s.plan? id = some plan →
    (s.below id).length = plan.size ∧ (s.leavesBelow id).length = plan.leafCount) ?_ hid
  intro id n hn ih plan h
  rw [plan?_eq hs hn, Option.map_eq_some_iff] at h
  obtain ⟨plans, hplans, rfl⟩ := h
  rw [mapM_eq_some_iff] at hplans
  constructor
  · rw [below_eq hs hn, List.length_cons, length_flatMap_of_forall₂ (fun c hc x hx => (ih c hc hx).1) hplans,
      SkeletonPlan.size, sizes_eq_sum, Nat.add_comm]
  · cases hc : n.children with
    | nil =>
      obtain rfl : plans = [] := List.forall₂_nil_left_iff.mp (hc ▸ hplans)
      have hleaf : s.isLeaf id = true := by simp [isLeaf, hn, hc]
      rw [leavesBelow, below_eq hs hn, hc, List.flatMap_nil, List.filter_cons_of_pos hleaf]
      rfl
    | cons c cs =>
      have hsum := length_flatMap_of_forall₂ (fun c hc x hx => (ih c hc hx).2) hplans
      rw [leavesBelow_of_children hs hn (by simp [hc]), hsum]
      cases hps : plans with
      | nil => simpa [hc, hps] using hplans.length_eq
      | cons p ps => exact (leafCounts_eq_sum (p :: ps)).symm

/-! ## Lists of children -/

theorem count_flatMap_modify {ns : List (Node K)} {i : Nat} (hi : i < ns.length) (z x : Nat) :
    ((ns.modify i fun n => { n with children := n.children ++ [z] }).flatMap Node.children).count x =
      (ns.flatMap Node.children).count x + if x = z then 1 else 0 := by
  induction ns generalizing i with
  | nil => exact absurd hi (Nat.not_lt_zero i)
  | cons n ns ih =>
    cases i with
    | zero =>
      have hz : [z].count x = if x = z then 1 else 0 := by
        by_cases h : x = z
        · simp [h]
        · rw [if_neg h, List.count_eq_zero, List.mem_singleton]
          exact h
      simp only [List.modify_zero_cons, List.flatMap_cons, List.count_append, hz]
      omega
    | succ i =>
      have := ih (Nat.lt_of_succ_lt_succ hi)
      simp only [List.modify_succ_cons, List.flatMap_cons, List.count_append, this]
      omega

theorem count_childIds_link (hp : parent ≤ s.size) (x : Nat) :
    (s.link parent point).childIds.count x = s.childIds.count x + if x = s.size then 1 else 0 := by
  have hlen : parent < (s.nodes.push ⟨point, []⟩).toList.length := by
    rw [Array.length_toList, Array.size_push]
    exact Nat.lt_succ_of_le hp
  rw [childIds, link, Array.toList_modify, count_flatMap_modify hlen, Array.toList_push, List.flatMap_append,
    List.flatMap_singleton, List.append_nil]
  rfl

/-- **Every node but the root is a child once**, and nothing else is. -/
theorem count_childIds (hs : s.Grown) (x : Nat) :
    s.childIds.count x = if root < x ∧ x < s.size then 1 else 0 := by
  induction hs with
  | single point =>
    have hnone : ¬ (root < x ∧ x < (Skeleton.single point).size) := by rw [size_single, root]; omega
    rw [if_neg hnone]
    rfl
  | @addChild s t parent new point hs hp h ih =>
    obtain ⟨rfl, -⟩ := link_of_addChild? h
    have hpos := hs.root_lt_size
    rw [count_childIds_link (Nat.le_of_lt hp), ih, size_link]
    split <;> split <;> split <;> omega

/-- **A flattened description is read back as it was.** From the root of the skeleton that a description is flattened
to, the description is read back. Every node but the root stands exactly once in all lists of children, and it stands
in that of a node in front of it. There are as many nodes, and as many nodes without children, as the description
has. -/
theorem flattened_plan (plan : SkeletonPlan K) :
    (ofPlan plan).plan? root = some plan ∧
    (∀ id < (ofPlan plan).size, id ≠ root → (ofPlan plan).childIds.count id = 1 ∧
      ∃ parent n, parent < id ∧ (ofPlan plan).node? parent = some n ∧ id ∈ n.children) ∧
    (ofPlan plan).size = plan.size ∧ (ofPlan plan).leafCount = plan.leafCount := by
  have hs := grown_ofPlan plan
  have hplan := plan?_ofPlan plan
  obtain ⟨hsize, hleaves⟩ := length_below_of_plan? hs hs.root_lt_size hplan
  refine ⟨hplan, fun id hid hroot => ?_, ?_, ?_⟩
  · have hcount : (ofPlan plan).childIds.count id = 1 := by
      rw [count_childIds hs, if_pos ⟨Nat.pos_of_ne_zero hroot, hid⟩]
    have hmem : id ∈ (ofPlan plan).childIds := List.count_pos_iff.mp (by omega)
    obtain ⟨n, hn, hchild⟩ := List.mem_flatMap.mp hmem
    obtain ⟨parent, hparent⟩ := List.mem_iff_getElem?.mp hn
    rw [Array.getElem?_toList] at hparent
    exact ⟨hcount, parent, n, (hs.lt_of_mem_children hparent hchild).1, hparent, hchild⟩
  · rw [← hsize, (below_root_perm hs).length_eq, List.length_range]
  · rw [← hleaves, length_leavesBelow_root hs]

end Foliage
