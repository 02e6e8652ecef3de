import Foliage.Skeleton.Bezier

/-!
# How skeletons grow

A skeleton is `Grown` when it comes from a single node by adding children, each below a node that is already there.
Those that are flattened from a nested description or sampled from a curve are grown, too (`Made.isGrown`), so that an
induction over `Grown` speaks about all of them. It gives the order of the nodes: the children of a node stand behind
it (`Grown.lt_of_mem_children`).
-/

namespace Foliage

variable {K : Type}

namespace Skeleton

/-- Skeletons that are grown from one node, a child at a time. -/
inductive Grown : Skeleton K → Prop
  | single (point : Vec K) : Grown (.single point)
  | addChild {s t : Skeleton K} {parent id : Nat} {point : Vec K} :
      Grown s → parent < s.size → s.addChild? parent point = some (t, id) → Grown t

/-- The ways in which a skeleton is made. -/
inductive Made [Scalar K] : Skeleton K → Prop
  | ofPlan (plan : SkeletonPlan K) : Made (.ofPlan plan)
  | ofCurve {control : List (Vec K)} {segments : Nat} {s : Skeleton K} :
      ofCurve? control segments = some s → Made s
  | grown {s : Skeleton K} : s.Grown → Made s

end Skeleton

open Skeleton

variable {s t : Skeleton K} {n : Node K} {id parent child : Nat} {point : Vec K}

/-! ## One more node -/

@[simp] theorem size_single : (Skeleton.single point).size = 1 := rfl

@[simp] theorem size_link : (s.link parent point).size = s.size + 1 := by
  simp [Skeleton.link, Skeleton.size]

theorem node?_single : (Skeleton.single point).node? id = if id = 0 then some ⟨point, []⟩ else none := by
  cases id <;> rfl

theorem lt_size_of_node? (h : s.node? id = some n) : id < s.size := by
  obtain ⟨hid, -⟩ := Array.getElem?_eq_some_iff.mp h
  exact hid

theorem exists_node? (h : id < s.size) : ∃ n, s.node? id = some n := ⟨s.nodes[id], Array.getElem?_eq_getElem h⟩

theorem node?_link_size (hp : parent < s.size) : (s.link parent point).node? s.size = some ⟨point, []⟩ := by
  have hne : parent ≠ s.nodes.size := Nat.ne_of_lt hp
  simp only [Skeleton.link, Skeleton.node?, Skeleton.size]
  rw [Array.getElem?_modify, if_neg hne, Array.getElem?_push_size]

theorem node?_link_of_lt (hid : id < s.size) (parent : Nat) (point : Vec K) :
    (s.link parent point).node? id =
      (s.node? id).map fun n => if parent = id then { n with children := n.children ++ [s.size] } else n := by
  have hne : id ≠ s.nodes.size := Nat.ne_of_lt hid
  by_cases hp : parent = id <;>
    simp [Skeleton.link, Skeleton.node?, Skeleton.size, Array.getElem?_modify, Array.getElem?_push, hp, hne]

theorem link_of_addChild? (h : s.addChild? parent point = some (t, id)) : t = s.link parent point ∧ id = s.size := by
  unfold addChild? at h
  split at h
  · obtain ⟨rfl, rfl⟩ := Prod.mk.inj (Option.some.inj h)
    exact ⟨rfl, rfl⟩
  · cases h

theorem Skeleton.Grown.link (hs : s.Grown) (hp : parent < s.size) (point : Vec K) : (s.link parent point).Grown :=
  .addChild hs hp (if_pos (Nat.le_of_lt hp))

/-! ## Every skeleton is grown -/

theorem grown_linkAll (hs : s.Grown) (hp : parent < s.size) {pending : List (Nat × SkeletonPlan K)}
    (hpending : ∀ x ∈ pending, x.1 < s.size) (cs : List (SkeletonPlan K)) :
    (linkAll parent s pending cs).1.Grown ∧
      ∀ x ∈ (linkAll parent s pending cs).2, x.1 < (linkAll parent s pending cs).1.size := by
  induction cs generalizing s pending with
  | nil => exact ⟨hs, hpending⟩
  | cons c cs ih =>
    refine ih (hs.link hp c.point) (by rw [size_link]; omega) fun x hx => ?_
    rw [size_link]
    rcases List.mem_cons.mp hx with rfl | hx
    · exact Nat.lt_succ_self _
    · exact Nat.lt_succ_of_lt (hpending x hx)

theorem grown_fill (hs : s.Grown) {pending : List (Nat × SkeletonPlan K)} (hpending : ∀ x ∈ pending, x.1 < s.size) :
    (fill s pending).Grown := by
  induction s, pending using fill.induct with
  | case1 s => rwa [fill]
  | case2 s id plan pending grown ih =>
    have h := grown_linkAll hs (hpending _ List.mem_cons_self) (fun x hx => hpending x (List.mem_cons_of_mem _ hx))
      plan.children
    rw [fill]
    exact ih h.1 h.2

theorem grown_ofPlan (plan : SkeletonPlan K) : (ofPlan plan).Grown := by
  refine grown_fill (.single plan.point) fun x hx => ?_
  rw [List.mem_singleton.mp hx]
  exact Nat.one_pos

section Scalar

variable [Scalar K]

theorem grown_extendChain {segments : Nat} {first : Vec K} {rest : List (Vec K)} {count i tip : Nat} (hs : s.Grown)
    (ht : tip < s.size) : (extendChain segments first rest count i tip s).Grown := by
  induction count generalizing i tip s with
  | zero => exact hs
  | succ count ih => exact ih (hs.link ht _) (by rw [size_link]; exact Nat.lt_succ_self _)

theorem grown_ofCurve {control : List (Vec K)} {segments : Nat} (h : ofCurve? control segments = some s) :
    s.Grown := by
  cases control with
  | nil => cases h
  | cons first rest =>
    obtain rfl := Option.some.inj h
    exact grown_extendChain (.single first) Nat.one_pos

/-- **Every skeleton is grown**, however it is made. -/
theorem Skeleton.Made.isGrown (h : s.Made) : s.Grown := by
  cases h with
  | ofPlan plan => exact grown_ofPlan plan
  | ofCurve h => exact grown_ofCurve h
  | grown h => exact h

end Scalar

/-! ## The order of the nodes -/

theorem Skeleton.Grown.root_lt_size (hs : s.Grown) : root < s.size := by
  cases hs with
  | single point => exact Nat.one_pos
  | addChild _ _ h => rw [(link_of_addChild? h).1, size_link]; exact Nat.succ_pos _

/-- The children of a node stand behind it. -/
theorem Skeleton.Grown.lt_of_mem_children (hs : s.Grown) (hn : s.node? id = some n) (hc : child ∈ n.children) :
    id < child ∧ child < s.size := by
  induction hs generalizing n with
  | single point =>
    rw [node?_single] at hn
    split at hn
    · cases hn; cases hc
    · cases hn
  | @addChild s t parent new point hs hp h ih =>
    obtain ⟨rfl, -⟩ := link_of_addChild? h
    rw [size_link]
    have hid := lt_size_of_node? hn
    rw [size_link] at hid
    rcases Nat.lt_succ_iff_lt_or_eq.mp hid with hid | rfl
    · obtain ⟨m, hm, rfl⟩ := Option.map_eq_some_iff.mp ((node?_link_of_lt hid parent point).symm.trans hn)
      by_cases hpar : parent = id
      · rw [if_pos hpar] at hc
        rcases List.mem_append.mp hc with hc | hc
        · obtain ⟨h₁, h₂⟩ := ih hm hc
          exact ⟨h₁, Nat.lt_succ_of_lt h₂⟩
        · rw [List.mem_singleton.mp hc]
          exact ⟨hid, Nat.lt_succ_self _⟩
      · rw [if_neg hpar] at hc
        obtain ⟨h₁, h₂⟩ := ih hm hc
        exact ⟨h₁, Nat.lt_succ_of_lt h₂⟩
    · rw [node?_link_size hp] at hn
      cases hn
      cases hc

end Foliage
