import Mathlib.Data.List.Forall2

/-!
# Maps that can fail

A list is mapped by a function that can fail to the images of its entries, in order (`mapM_eq_some_iff`), or not at all
when some entry has no image (`mapM_eq_none_iff`); `filterMap` keeps the images that there are (`forall₂_filterMap`).
Either way every image comes from an entry (`exists_of_forall₂`). A list that has entries with a property has a first
one (`exists_first`).
-/

namespace Foliage

variable {α β : Type} {f : α → Option β} {xs : List α}

theorem mapM_eq_some_iff {ys : List β} : xs.mapM f = some ys ↔ List.Forall₂ (fun x y => f x = some y) xs ys := by
  induction xs generalizing ys with
  | nil => simp [eq_comm]
  | cons x xs ih =>
    rw [List.mapM_cons, List.forall₂_cons_left_iff]
    cases hx : f x with
    | none => simp
    | some y => cases hxs : xs.mapM f <;> simp [← ih, hxs, eq_comm]

theorem mapM_eq_none_iff : xs.mapM f = none ↔ ∃ x ∈ xs, f x = none := by
  induction xs with
  | nil => simp
  | cons x xs ih =>
    cases hx : f x with
    | none => simp [hx]
    | some y => cases hxs : xs.mapM f <;> simpa [hx, hxs] using ih

theorem isSome_mapM (h : ∀ x ∈ xs, (f x).isSome) : (xs.mapM f).isSome := by
  refine Option.ne_none_iff_isSome.mp fun hnone => ?_
  obtain ⟨x, hx, hfx⟩ := mapM_eq_none_iff.mp hnone
  exact Option.ne_none_iff_isSome.mpr (h x hx) hfx

/-- A list is mapped to the images of its entries when all of them have one. -/
theorem mapM_of_isSome (h : ∀ x ∈ xs, (f x).isSome) (default : β) :
    xs.mapM f = some (xs.map fun x => (f x).getD default) := by
  refine mapM_eq_some_iff.mpr (List.forall₂_map_right_iff.mpr (List.forall₂_same.mpr fun x hx => ?_))
  obtain ⟨y, hy⟩ := Option.isSome_iff_exists.mp (h x hx)
  rw [hy, Option.getD_some]

/-- Entries that pairwise have the same image are mapped alike. -/
theorem mapM_eq_of_forall₂ {ys : List α} (h : List.Forall₂ (fun x y => f x = f y) xs ys) : xs.mapM f = ys.mapM f := by
  induction h with
  | nil => rfl
  | cons hxy _ ih => rw [List.mapM_cons, List.mapM_cons, hxy, ih]

theorem mapM_congr {g : α → Option β} (h : ∀ x ∈ xs, f x = g x) : xs.mapM f = xs.mapM g := by
  induction xs with
  | nil => rfl
  | cons x xs ih =>
    rw [List.mapM_cons, List.mapM_cons, h x List.mem_cons_self, ih fun y hy => h y (List.mem_cons_of_mem _ hy)]

/-- The entries that have an image are mapped to their images one by one. -/
theorem forall₂_filterMap (f : α → Option β) (xs : List α) :
    List.Forall₂ (fun x y => f x = some y) (xs.filter fun x => (f x).isSome) (xs.filterMap f) := by
  induction xs with
  | nil => exact .nil
  | cons x xs ih =>
    cases hx : f x with
    | none =>
      rw [List.filter_cons_of_neg (by simp [hx]), List.filterMap_cons_none hx]
      exact ih
    | some y =>
      rw [List.filter_cons_of_pos (by simp [hx]), List.filterMap_cons_some hx]
      exact .cons hx ih

/-- What a list is mapped to comes from its entries. -/
theorem exists_of_forall₂ {R : α → β → Prop} {ys : List β} (h : List.Forall₂ R xs ys) {y : β} (hy : y ∈ ys) :
    ∃ x ∈ xs, R x y := by
  induction h with
  | nil => cases hy
  | cons hxy _ ih =>
    rcases List.mem_cons.mp hy with rfl | hy
    · exact ⟨_, List.mem_cons_self, hxy⟩
    · obtain ⟨x, hx, hR⟩ := ih hy
      exact ⟨x, List.mem_cons_of_mem _ hx, hR⟩

theorem exists_first {p : α → Prop} (h : ∃ x ∈ xs, p x) :
    ∃ before x after, xs = before ++ x :: after ∧ (∀ b ∈ before, ¬ p b) ∧ p x := by
  induction xs with
  | nil => simp at h
  | cons x xs ih =>
    by_cases hx : p x
    · exact ⟨[], x, xs, rfl, by simp, hx⟩
    · rw [List.exists_mem_cons_iff] at h
      obtain ⟨before, y, after, rfl, hbefore, hy⟩ := ih (h.resolve_left hx)
      exact ⟨x :: before, y, after, rfl, List.forall_mem_cons.mpr ⟨hx, hbefore⟩, hy⟩

end Foliage
