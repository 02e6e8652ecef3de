import Foliage.Proofs.Rule.Index

/-!
# Which rules are accepted

Whether some rules make a stochastic set depends on their tags and weights alone (`Rule.share`), in the order of their
declaration. `acceptable` decides it for a list of these, so that rules whose outputs are not known in advance can be
shown to be accepted by computing with their weights (`build_of_acceptable`). In a set that was accepted all weights are
valid (`isWeight_of_build`).
-/

namespace Foliage

variable {K : Type}

/-- The tag of a rule and its share of the mass of the tag. -/
def Rule.share (r : Rule K) : Tag × K := (r.tag, r.weight)

variable [Scalar K]

/-- The mass that shares give to a tag, added to a sum from the first to the last. -/
def massOf (sum : K) (shares : List (Tag × K)) (tag : Tag) : K :=
  (shares.filter fun p => p.1 = tag).foldl (fun sum p => sum + p.2) sum

/-- Every weight is one that a rule may have, and no tag has more than the full weight. -/
def acceptable (shares : List (Tag × K)) : Bool :=
  shares.all fun p => RuleSet.isWeight p.2 && !decide (RuleSet.fullWeight < massOf (-0) shares p.1)

theorem foldl_filter_eq_massOf (sum : K) (rules : List (Rule K)) (tag : Tag) :
    (rules.filter fun r => r.tag = tag).foldl (fun sum r => sum + r.weight) sum =
      massOf sum (rules.map Rule.share) tag := by
  rw [massOf, List.filter_map, List.foldl_map]
  rfl

/-! ## What makes a stochastic set -/

section Building

variable {rules : List (Rule K)}

open RuleSet

/-- An entry of the index that weighs too much is one of a tag that does. -/
theorem find?_ofRules_eq_some {entry : Tag × List Nat}
    (h : (TagIndex.ofRules rules).find? (fun entry => decide (fullWeight < weigh (rulesAt rules entry.2))) =
      some entry) :
    weigh (rulesAt rules entry.2) = weigh (rules.filter fun r => r.tag = entry.1) ∧
      fullWeight < weigh (rules.filter fun r => r.tag = entry.1) := by
  have hsame := (rulesAt_of_mem_ofRules (List.mem_of_find?_eq_some h)).1
  have hover := List.find?_some h
  rw [decide_eq_true_iff, hsame] at hover
  rw [hsame]
  exact ⟨rfl, hover⟩

/-- No entry of the index weighs too much when no tag does. -/
theorem find?_ofRules_eq_none_iff :
    (TagIndex.ofRules rules).find? (fun entry => decide (fullWeight < weigh (rulesAt rules entry.2))) = none ↔
      ∀ tag ∈ rules.map Rule.tag, ¬ fullWeight < weigh (rules.filter fun r => r.tag = tag) := by
  simp only [List.find?_eq_none, decide_eq_true_iff]
  constructor
  · intro h tag htag
    obtain ⟨entry, hentry, rfl⟩ := List.mem_map.mp (mem_tags_ofRules.mpr htag)
    rw [← (rulesAt_of_mem_ofRules hentry).1]
    exact h entry hentry
  · intro h entry hentry
    obtain ⟨hsame, htag⟩ := rulesAt_of_mem_ofRules hentry
    rw [hsame]
    exact h entry.1 htag

theorem find?_invalid_eq_none (hvalid : ∀ r ∈ rules, isWeight r.weight = true) :
    rules.find? (fun r => !isWeight r.weight) = none := by
  refine List.find?_eq_none.mpr fun r hr => ?_
  simp [hvalid r hr]

/-- Rules with valid weights that do not add up to too much make a stochastic set. -/
theorem build_of_light (hvalid : ∀ r ∈ rules, isWeight r.weight = true)
    (hlight : ∀ tag ∈ rules.map Rule.tag, ¬ fullWeight < weigh (rules.filter fun r => r.tag = tag)) :
    build .stochastic rules = .ok (.ofRules .stochastic rules) := by
  simp only [build, index_ofRules, find?_invalid_eq_none hvalid, find?_ofRules_eq_none_iff.mpr hlight]

/-- The first rule with an invalid weight is the fault of the set, whatever the weights add up to. -/
theorem build_of_invalid {before after : List (Rule K)} {r : Rule K}
    (hbefore : ∀ b ∈ before, isWeight b.weight = true) (hr : isWeight r.weight = false) :
    build .stochastic (before ++ r :: after) = .error (.invalidWeight r.tag r.weight) := by
  have hfirst : (before ++ r :: after).find? (fun r => !isWeight r.weight) = some r :=
    List.find?_eq_some_iff_append.mpr ⟨by simp [hr], before, after, rfl, fun b hb => by simp [hbefore b hb]⟩
  simp only [build, hfirst]

/-- When all weights are valid, the only tag that is overweight is the fault of the set. -/
theorem build_of_overweight (hvalid : ∀ r ∈ rules, isWeight r.weight = true) {tag : Tag}
    (htag : tag ∈ rules.map Rule.tag) (hover : fullWeight < weigh (rules.filter fun r => r.tag = tag))
    (honly : ∀ t, fullWeight < weigh (rules.filter fun r => r.tag = t) → t = tag) :
    build .stochastic rules = .error (.overweight tag (weigh (rules.filter fun r => r.tag = tag))) := by
  cases hindex : (TagIndex.ofRules rules).find? fun entry => decide (fullWeight < weigh (rulesAt rules entry.2)) with
  | none => exact absurd hover (find?_ofRules_eq_none_iff.mp hindex tag htag)
  | some entry =>
    obtain ⟨hsame, hentry⟩ := find?_ofRules_eq_some hindex
    obtain rfl := honly entry.1 hentry
    simp only [build, index_ofRules, find?_invalid_eq_none hvalid, hindex, hsame]

end Building

/-- Rules with acceptable shares make a stochastic set. -/
theorem build_of_acceptable {rules : List (Rule K)} (h : acceptable (rules.map Rule.share) = true) :
    RuleSet.build .stochastic rules = .ok (.ofRules .stochastic rules) := by
  have hrule : ∀ r ∈ rules, RuleSet.isWeight r.weight = true ∧
      ¬ RuleSet.fullWeight < RuleSet.weigh (rules.filter fun r' => r'.tag = r.tag) := by
    intro r hr
    obtain ⟨hweight, hmass⟩ := Bool.and_eq_true_iff.mp (List.all_eq_true.mp h _ (List.mem_map_of_mem hr))
    rw [Bool.not_eq_true'] at hmass
    rw [RuleSet.weigh, foldl_filter_eq_massOf]
    exact ⟨hweight, of_decide_eq_false hmass⟩
  refine build_of_light (fun r hr => (hrule r hr).1) fun tag htag => ?_
  obtain ⟨r, hr, rfl⟩ := List.mem_map.mp htag
  exact (hrule r hr).2

/-- What is accepted are the rules as they were declared, with valid weights that do not add up to too much. -/
theorem valid_of_build {rules : List (Rule K)} {s : RuleSet K} (h : RuleSet.build .stochastic rules = .ok s) :
    s = .ofRules .stochastic rules ∧ (∀ r ∈ rules, RuleSet.isWeight r.weight = true) ∧
      ∀ tag ∈ rules.map Rule.tag, ¬ RuleSet.fullWeight < RuleSet.weigh (rules.filter fun r => r.tag = tag) := by
  simp only [RuleSet.build] at h
  split at h
  · cases h
  · rename_i hvalid
    split at h
    · cases h
    · rename_i hlight
      refine ⟨(Except.ok.inj h).symm, fun r hr => ?_, find?_ofRules_eq_none_iff.mp hlight⟩
      simpa using List.find?_eq_none.mp hvalid r hr

/-- What is accepted are the rules as they were declared, with valid weights. -/
theorem isWeight_of_build {rules : List (Rule K)} {s : RuleSet K} (h : RuleSet.build .stochastic rules = .ok s) :
    s = .ofRules .stochastic rules ∧ ∀ r ∈ rules, RuleSet.isWeight r.weight = true :=
  ⟨(valid_of_build h).1, (valid_of_build h).2.1⟩

end Foliage
