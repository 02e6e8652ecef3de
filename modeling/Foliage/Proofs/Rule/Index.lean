import Foliage.Rule
import Mathlib.Data.List.Basic
import Mathlib.Data.List.Induction

/-!
# The index of rules

Filing a position changes what is under its tag, and nothing else (`positions_file`). Hence the index of some rules has
under every tag the positions of the rules of this tag, from the first to the last (`positions_ofRules`), and it has the
tags of the rules, each of them once (`mem_tags_ofRules`, `nodup_ofRules`). At every position there is a rule
(`getElem?_positions_ofRules`), and what a set finds for a tag through its index is what a filter finds in its rules
(`matching_eq_filter`).
-/

namespace Foliage

variable {K : Type}

/-! ## Filing a position -/

namespace TagIndex

variable {index : TagIndex} {tag t : Tag} {i : Nat}

@[simp] theorem positions_nil : positions [] t = [] := rfl

theorem positions_cons (places : List Nat) :
    positions ((tag, places) :: index) t = if t = tag then places else positions index t := by
  unfold positions
  rw [List.lookup_cons]
  by_cases h : t = tag
  · simp [h]
  · simp [h, beq_eq_false_iff_ne.mpr h]

theorem positions_file : (index.file tag i).positions t = index.positions t ++ if t = tag then [i] else [] := by
  induction index with
  | nil => simp [file, positions_cons]
  | cons entry index ih =>
    obtain ⟨u, places⟩ := entry
    by_cases hu : u = tag
    · subst hu
      by_cases h : t = u <;> simp [file, positions_cons, h]
    · by_cases h : t = u
      · simp [file, positions_cons, hu, h]
      · simp [file, positions_cons, hu, h, ih]

theorem mem_tags_file : t ∈ (index.file tag i).map Prod.fst ↔ t = tag ∨ t ∈ index.map Prod.fst := by
  induction index with
  | nil => simp [file]
  | cons entry index ih =>
    obtain ⟨u, places⟩ := entry
    by_cases hu : u = tag
    · simp [file, hu]
    · simp only [file, if_neg hu, List.map_cons, List.mem_cons, ih]
      exact or_left_comm

theorem nodup_file (h : (index.map Prod.fst).Nodup) : ((index.file tag i).map Prod.fst).Nodup := by
  induction index with
  | nil => simp [file]
  | cons entry index ih =>
    obtain ⟨u, places⟩ := entry
    obtain ⟨hu, hindex⟩ := List.nodup_cons.mp h
    by_cases hut : u = tag
    · simpa [file, hut] using h
    · rw [file, if_neg hut, List.map_cons, List.nodup_cons, mem_tags_file, not_or]
      exact ⟨⟨hut, hu⟩, ih hindex⟩

/-- Where no tag occurs twice, an entry has the positions that are found under its tag. -/
theorem positions_of_mem {places : List Nat} (hnodup : (index.map Prod.fst).Nodup) (h : (tag, places) ∈ index) :
    index.positions tag = places := by
  induction index with
  | nil => cases h
  | cons entry index ih =>
    obtain ⟨u, others⟩ := entry
    obtain ⟨hu, hindex⟩ := List.nodup_cons.mp hnodup
    rw [positions_cons]
    rcases List.mem_cons.mp h with heq | h
    · obtain ⟨rfl, rfl⟩ := Prod.mk.inj heq
      exact if_pos rfl
    · have hne : tag ≠ u := fun he => hu (List.mem_map.mpr ⟨(tag, places), h, he⟩)
      rw [if_neg hne, ih hindex h]

end TagIndex

/-! ## Filing all rules -/

open TagIndex

variable {rules : List (Rule K)} {tag : Tag}

theorem ofRules_concat (rules : List (Rule K)) (r : Rule K) :
    ofRules (rules ++ [r]) = (ofRules rules).file r.tag rules.length := by
  simp [ofRules, List.zipIdx_append]

theorem positions_ofRules (rules : List (Rule K)) (tag : Tag) :
    (ofRules rules).positions tag = rules.findIdxs fun r => r.tag = tag := by
  induction rules using List.reverseRecOn with
  | nil => rfl
  | append_singleton rules r ih =>
    rw [ofRules_concat, positions_file, ih, List.findIdxs_append, List.findIdxs_singleton]
    simp [eq_comm]

theorem mem_tags_ofRules : tag ∈ (ofRules rules).map Prod.fst ↔ tag ∈ rules.map Rule.tag := by
  induction rules using List.reverseRecOn with
  | nil => exact Iff.rfl
  | append_singleton rules r ih =>
    rw [ofRules_concat, mem_tags_file, ih, List.map_append, List.mem_append, List.map_singleton, List.mem_singleton]
    exact or_comm

theorem nodup_ofRules (rules : List (Rule K)) : ((ofRules rules).map Prod.fst).Nodup := by
  induction rules using List.reverseRecOn with
  | nil => exact List.nodup_nil
  | append_singleton rules r ih =>
    rw [ofRules_concat]
    exact nodup_file ih

/-- **The index finds all rules of a tag**, and no others, in the order of their declaration. -/
theorem getElem?_positions_ofRules (rules : List (Rule K)) (tag : Tag) :
    ((ofRules rules).positions tag).map (fun i => rules[i]?) = (rules.filter fun r => r.tag = tag).map some := by
  rw [positions_ofRules]
  refine List.ext_getElem (by simp [List.countP_eq_length_filter]) fun i hi hi' => ?_
  have hplace : i < (rules.filter fun r => r.tag = tag).length := by simpa using hi'
  rw [List.getElem_map, List.getElem_map]
  exact List.getElem?_eq_some_iff.mpr
    ⟨List.getElem_findIdxs_lt _, (List.getElem_filter_eq_getElem_getElem_findIdxs hplace).symm⟩

theorem rulesAt_positions_ofRules (rules : List (Rule K)) (tag : Tag) :
    RuleSet.rulesAt rules ((ofRules rules).positions tag) = rules.filter fun r => r.tag = tag := by
  have h := congrArg (List.filterMap id) (getElem?_positions_ofRules rules tag)
  simpa [RuleSet.rulesAt, List.filterMap_map] using h

@[simp] theorem index_ofRules (mode : Mode) (rules : List (Rule K)) :
    (RuleSet.ofRules mode rules).index = .ofRules rules :=
  rfl

/-- **The rules of a tag** are those of the set that have it, in the order of their declaration. -/
theorem matching_eq_filter (s : RuleSet K) (tag : Tag) : s.matching tag = s.rules.filter fun r => r.tag = tag := by
  rw [RuleSet.matching, s.index_eq, rulesAt_positions_ofRules]

theorem mem_matching {s : RuleSet K} {r : Rule K} : r ∈ s.matching tag ↔ r ∈ s.rules ∧ r.tag = tag := by
  rw [matching_eq_filter, List.mem_filter, decide_eq_true_iff]

theorem matching_eq_nil_iff {s : RuleSet K} : s.matching tag = [] ↔ tag ∉ s.rules.map Rule.tag := by
  simp [matching_eq_filter, List.filter_eq_nil_iff]

/-- An entry of the index has the positions of all rules of its tag, and there is one. -/
theorem rulesAt_of_mem_ofRules {places : List Nat} (h : (tag, places) ∈ ofRules rules) :
    RuleSet.rulesAt rules places = (rules.filter fun r => r.tag = tag) ∧ tag ∈ rules.map Rule.tag := by
  refine ⟨?_, mem_tags_ofRules.mp (List.mem_map_of_mem h)⟩
  rw [← positions_of_mem (nodup_ofRules rules) h]
  exact rulesAt_positions_ofRules rules tag

end Foliage
