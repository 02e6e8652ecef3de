import Foliage.Proofs.Skeleton.Flattening

/-!
# Children added by position

`s.addChildren? calls` adds one child after the other, each below the position that a call names for it. A call is
refused only when this position is behind the one that the new node gets (`addChild?_eq_none_iff`); the position of the
new node itself is accepted, although there is no node at the time, and makes the node its own child
(`node?_link_self`).

The new node of a call is a child of the position that the call names, and of no other (`hasChild_addChildren`), so
that every node but the root is a child once, whatever is named (`count_childIds_addChildren`). The result is a tree
(`Skeleton.IsTree`) exactly when every call has named a node that was there before it (`isTree_iff`).
-/

namespace Foliage

variable {K : Type}

namespace Skeleton

/-- The skeleton with several new children, each below the position that comes with its point. There is none as soon as
one of them cannot be added. -/
def addChildren? (s : Skeleton K) : List (Nat × Vec K) → Option (Skeleton K)
  | [] => some s
  | (parent, point) :: calls => (s.addChild? parent point).bind fun grown => addChildren? grown.1 calls

/-- The node at the first position has the second one among its children. -/
def HasChild (s : Skeleton K) (parent child : Nat) : Prop :=
  ∃ n, s.node? parent = some n ∧ child ∈ n.children

/-- The root is no child, and every other node is a child once, of a node in front of it. -/
structure IsTree (s : Skeleton K) : Prop where
  root_free : root ∉ s.childIds
  once : ∀ id < s.size, id ≠ root → s.childIds.count id = 1
  parent_lt : ∀ id < s.size, id ≠ root → ∃ parent < id, s.HasChild parent id

end Skeleton

open Skeleton

variable {s t : Skeleton K} {n : Node K} {id parent child : Nat} {point : Vec K} {calls : List (Nat × Vec K)}

/-! ## One new child -/

/-- A child is refused when its parent is behind the position that the child itself would get. -/
theorem addChild?_eq_none_iff : s.addChild? parent point = none ↔ s.size < parent := by
  rw [addChild?]
  split <;> simp <;> omega

/-- The new node has itself for a child if that was asked for. -/
theorem node?_link_self (s : Skeleton K) (point : Vec K) :
    (s.link s.size point).node? s.size = some ⟨point, [s.size]⟩ := by
  simp only [Skeleton.link, Skeleton.node?, Skeleton.size]
  rw [Array.getElem?_modify, if_pos rfl, Array.getElem?_push_size]
  rfl

theorem hasChild_of_node? (hn : s.node? id = some n) : s.HasChild id child ↔ child ∈ n.children := by
  simp [HasChild, hn]

theorem not_hasChild_of_size_le (hid : s.size ≤ id) : ¬ s.HasChild id child := by
  rintro ⟨n, hn, -⟩
  exact absurd (lt_size_of_node? hn) (Nat.not_lt_of_le hid)

theorem not_hasChild_single : ¬ (Skeleton.single point).HasChild parent child := by
  rintro ⟨n, hn, hc⟩
  rw [node?_single] at hn
  split at hn
  · cases hn; cases hc
  · cases hn

/-- A new node becomes a child of the position that was asked for, and of no other. -/
theorem hasChild_link (hp : parent ≤ s.size) :
    (s.link parent point).HasChild id child ↔ s.HasChild id child ∨ id = parent ∧ child = s.size := by
  rcases Nat.lt_trichotomy id s.size with hid | rfl | hid
  · obtain ⟨n, hn⟩ := exists_node? hid
    have hn' := node?_link_of_lt hid parent point
    rw [hn, Option.map_some] at hn'
    rw [hasChild_of_node? hn', hasChild_of_node? hn]
    by_cases hpar : parent = id
    · simp [hpar]
    · simp [hpar, Ne.symm hpar]
  · have hnone : ¬ s.HasChild s.size child := not_hasChild_of_size_le (Nat.le_refl _)
    rcases Nat.lt_or_eq_of_le hp with hlt | rfl
    · rw [hasChild_of_node? (node?_link_size hlt)]
      simp [hnone, Nat.ne_of_gt hlt]
    · rw [hasChild_of_node? (node?_link_self s point)]
      simp [hnone]
  · have hnone : ¬ s.HasChild id child := not_hasChild_of_size_le (Nat.le_of_lt hid)
    have hnone' : ¬ (s.link parent point).HasChild id child := not_hasChild_of_size_le (by rw [size_link]; exact hid)
    have hne : id ≠ parent := by omega
    simp [hnone, hnone', hne]

/-! ## Several new children -/

theorem addChildren?_cons {c : Nat × Vec K} :
    s.addChildren? (c :: calls) = some t ↔ c.1 ≤ s.size ∧ (s.link c.1 c.2).addChildren? calls = some t := by
  obtain ⟨parent, point⟩ := c
  by_cases hp : parent ≤ s.size <;> simp [addChildren?, addChild?, hp]

/-- Children are added when none of them is refused. -/
theorem addChildren?_isSome_iff :
    (∃ t, s.addChildren? calls = some t) ↔ ∀ i c, calls[i]? = some c → c.1 ≤ s.size + i := by
  induction calls generalizing s with
  | nil => simp [addChildren?]
  | cons c calls ih =>
    simp only [addChildren?_cons, exists_and_left, ih, size_link]
    constructor
    · rintro ⟨hc, h⟩ i d hi
      cases i with
      | zero => cases hi; exact hc
      | succ i =>
        have := h i d hi
        omega
    · intro h
      refine ⟨h 0 c rfl, fun i d hi => ?_⟩
      have := h (i + 1) d hi
      omega

theorem size_addChildren (h : s.addChildren? calls = some t) : t.size = s.size + calls.length := by
  induction calls generalizing s with
  | nil => cases h; rfl
  | cons c calls ih =>
    rw [ih (addChildren?_cons.mp h).2, size_link, List.length_cons]
    omega

/-- Every new node is a child once more than before, and no other is. -/
theorem count_childIds_addChildren (h : s.addChildren? calls = some t) (x : Nat) :
    t.childIds.count x = s.childIds.count x + if s.size ≤ x ∧ x < t.size then 1 else 0 := by
  induction calls generalizing s with
  | nil => cases h; rw [if_neg (by omega), Nat.add_zero]
  | cons c calls ih =>
    obtain ⟨hp, h⟩ := addChildren?_cons.mp h
    have hsize := size_addChildren h
    rw [ih h, count_childIds_link hp, size_link]
    rw [size_link] at hsize
    split <;> split <;> split <;> omega

/-- The new node of a call is a child of the position that the call names. -/
theorem hasChild_addChildren (h : s.addChildren? calls = some t) :
    t.HasChild parent child ↔
      s.HasChild parent child ∨ ∃ i c, calls[i]? = some c ∧ c.1 = parent ∧ child = s.size + i := by
  induction calls generalizing s with
  | nil => cases h; simp
  | cons c calls ih =>
    obtain ⟨hp, h⟩ := addChildren?_cons.mp h
    rw [ih h, hasChild_link hp, size_link, or_assoc]
    refine or_congr_right ⟨?_, ?_⟩
    · rintro (⟨rfl, rfl⟩ | ⟨i, d, hi, hd, rfl⟩)
      · exact ⟨0, c, rfl, rfl, rfl⟩
      · exact ⟨i + 1, d, hi, hd, by omega⟩
    · rintro ⟨i, d, hi, hd, rfl⟩
      cases i with
      | zero => cases hi; exact .inl ⟨hd.symm, rfl⟩
      | succ i => exact .inr ⟨i, d, hi, hd, by omega⟩

/-! ## Trees -/

section Calls

variable (h : (single point).addChildren? calls = some s)

include h

theorem size_of_calls : s.size = calls.length + 1 := by
  rw [size_addChildren h, size_single, Nat.add_comm]

theorem count_childIds_of_calls (x : Nat) : s.childIds.count x = if root < x ∧ x < s.size then 1 else 0 := by
  rw [count_childIds_addChildren h, size_single]
  exact Nat.zero_add _

theorem hasChild_of_calls :
    s.HasChild parent child ↔ ∃ (i : Nat) (c : Nat × Vec K), calls[i]? = some c ∧ c.1 = parent ∧ child = i + 1 := by
  simp [hasChild_addChildren h, not_hasChild_single, Nat.add_comm]

theorem root_not_mem_of_calls : root ∉ s.childIds := by
  rw [← List.count_eq_zero, count_childIds_of_calls h, if_neg (by omega)]

theorem exists_call (hid : id < s.size) (hroot : id ≠ root) : ∃ i c, calls[i]? = some c ∧ id = i + 1 := by
  obtain ⟨i, rfl⟩ := Nat.exists_eq_succ_of_ne_zero hroot
  have hi : i < calls.length := by
    rw [size_of_calls h] at hid
    omega
  exact ⟨i, calls[i], List.getElem?_eq_getElem hi, rfl⟩

/-- The skeleton is a tree exactly when every call has named a node that was there before it. -/
theorem isTree_iff : s.IsTree ↔ ∀ (i : Nat) c, calls[i]? = some c → c.1 ≤ i := by
  constructor
  · intro htree i c hi
    have hlt : i + 1 < s.size := by
      rw [size_of_calls h]
      obtain ⟨hi, -⟩ := List.getElem?_eq_some_iff.mp hi
      omega
    obtain ⟨parent, hparent, hchild⟩ := htree.parent_lt (i + 1) hlt (Nat.succ_ne_zero i)
    obtain ⟨j, d, hj, rfl, hij⟩ := (hasChild_of_calls h).mp hchild
    obtain rfl : i = j := Nat.succ.inj hij
    obtain rfl := Option.some.inj (hi.symm.trans hj)
    exact Nat.le_of_lt_succ hparent
  · intro hcalls
    refine ⟨root_not_mem_of_calls h, fun id hid hroot => ?_, fun id hid hroot => ?_⟩
    · rw [count_childIds_of_calls h, if_pos ⟨Nat.pos_of_ne_zero hroot, hid⟩]
    · obtain ⟨i, c, hi, rfl⟩ := exists_call h hid hroot
      exact ⟨c.1, Nat.lt_succ_of_le (hcalls i c hi), (hasChild_of_calls h).mpr ⟨i, c, hi, rfl, rfl⟩⟩

end Calls

/-- **Children added by position.** Children are added to a single node unless a call names a position behind that of
its own new node. There is one more node than there are calls, the root is no child, and the new node of every call is a
child once, of the position that the call names. The skeleton is a tree exactly when every call has named one of the
nodes that were there before it. Yet one more child is refused only below a position behind its own. -/
theorem addChildren_outcome (point : Vec K) (calls : List (Nat × Vec K)) :
    ((∃ s, (single point).addChildren? calls = some s) ↔ ∀ (i : Nat) c, calls[i]? = some c → c.1 ≤ i + 1) ∧
    ∀ s, (single point).addChildren? calls = some s →
      s.size = calls.length + 1 ∧ root ∉ s.childIds ∧
      (∀ (i : Nat) c, calls[i]? = some c → s.childIds.count (i + 1) = 1 ∧ s.HasChild c.1 (i + 1)) ∧
      (s.IsTree ↔ ∀ (i : Nat) c, calls[i]? = some c → c.1 ≤ i) ∧
      ∀ parent p, s.addChild? parent p = none ↔ s.size < parent := by
  refine ⟨by simp [addChildren?_isSome_iff, Nat.add_comm], fun s h => ?_⟩
  refine ⟨size_of_calls h, root_not_mem_of_calls h, fun i c hi => ?_, isTree_iff h, ?_⟩
  · obtain ⟨hlt, -⟩ := List.getElem?_eq_some_iff.mp hi
    have hsize := size_of_calls h
    rw [count_childIds_of_calls h, if_pos ⟨Nat.succ_pos i, by omega⟩]
    exact ⟨rfl, (hasChild_of_calls h).mpr ⟨i, c, hi, rfl, rfl⟩⟩
  · exact fun _ _ => addChild?_eq_none_iff

/-- A child can be added at the very position it will have, where there is no node yet: it becomes its own child, and
the skeleton is no tree. -/
theorem addChildren_own_child :
    ∃ s : Skeleton Float, (single 0).addChildren? [(1, .unitX)] = some s ∧
      (single (0 : Vec Float)).node? 1 = none ∧ s.HasChild 1 1 ∧ ¬ s.IsTree := by
  have hchild : ∀ parent child,
      ((single (0 : Vec Float)).link 1 .unitX).HasChild parent child ↔ parent = 1 ∧ child = 1 := by
    intro parent child
    rw [hasChild_link (Nat.le_refl 1)]
    simp [not_hasChild_single]
  refine ⟨_, rfl, rfl, (hchild 1 1).mpr ⟨rfl, rfl⟩, fun htree => ?_⟩
  obtain ⟨parent, hlt, hparent⟩ := htree.parent_lt 1 (Nat.lt_succ_self 1) Nat.one_ne_zero
  obtain ⟨rfl, -⟩ := (hchild parent 1).mp hparent
  exact Nat.lt_irrefl 1 hlt

end Foliage
