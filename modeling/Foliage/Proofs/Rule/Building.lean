import Foliage.Proofs.PartialMap
import Foliage.Proofs.Rule.Selection

/-!
# What comes of declared rules

With doubles for weights, `RuleSet.build` can be told from the declarations alone (`build_outcome`): a stochastic set
needs weights that are finite and not below zero, and no tag may have more than the full weight. Such weights have sums
that are not below zero (`weigh_nonneg`), so that a tag has either the full weight at most or too much.

What is accepted keeps all rules, and the rules that match a tag stand at the positions that its index has for it.
-/

namespace Foliage

open RuleSet

theorem isWeight_iff {w : Float} : isWeight w = true ↔ w.isFinite = true ∧ 0 ≤ w := by
  constructor
  · intro h
    exact ⟨(Bool.and_eq_true_iff.mp h).1, Scalar.Accumulates.nonneg_of_isWeight h⟩
  · rintro ⟨hfinite, hw⟩
    have hneg : ¬ w < 0 := (Scalar.Accumulates.not_lt hw Scalar.Accumulates.zero_nonneg).mpr hw
    refine Bool.and_eq_true_iff.mpr ⟨hfinite, ?_⟩
    rw [Bool.not_eq_true']
    exact decide_eq_false hneg

theorem isWeight_eq_false_iff {w : Float} : isWeight w = false ↔ ¬ (w.isFinite = true ∧ 0 ≤ w) := by
  rw [← isWeight_iff, Bool.not_eq_true]

/-- Valid weights do not add up to less than zero. -/
theorem weigh_nonneg {rs : List (Rule Float)} (h : ∀ r ∈ rs, isWeight r.weight = true) : 0 ≤ weigh rs := by
  have hsum := (sumTo_negZero h rs.length).1
  rwa [sumTo, List.take_length] at hsum

theorem fullWeight_nonneg : (0 : Float) ≤ fullWeight := by
  decide +kernel

/-- Valid weights of a tag add up to the full weight at most, or to more. -/
theorem not_overweight_iff {rules : List (Rule Float)} (h : ∀ r ∈ rules, isWeight r.weight = true) (tag : Tag) :
    ¬ fullWeight < weigh (rules.filter fun r => r.tag = tag) ↔
      weigh (rules.filter fun r => r.tag = tag) ≤ fullWeight :=
  Scalar.Accumulates.not_lt fullWeight_nonneg (weigh_nonneg fun r hr => h r (List.mem_filter.mp hr).1)

/-- A tag without rules has not too much weight. -/
theorem weigh_le_of_not_mem_tags {rules : List (Rule Float)} {tag : Tag} (h : tag ∉ rules.map Rule.tag) :
    weigh (rules.filter fun r => r.tag = tag) ≤ fullWeight := by
  have hnone : (rules.filter fun r => r.tag = tag) = [] := by
    refine List.filter_eq_nil_iff.mpr fun r hr => ?_
    rw [decide_eq_true_iff]
    rintro rfl
    exact h (List.mem_map_of_mem hr)
  rw [hnone]
  exact Scalar.Accumulates.le_trans Scalar.Accumulates.negZero_nonneg Scalar.Accumulates.zero_nonneg fullWeight_nonneg
    Scalar.Accumulates.negZero_le fullWeight_nonneg

theorem build_ok_iff {rules : List (Rule Float)} :
    (∃ s, build .stochastic rules = .ok s) ↔
      (∀ r ∈ rules, isWeight r.weight = true) ∧
        ∀ tag, weigh (rules.filter fun r => r.tag = tag) ≤ fullWeight := by
  constructor
  · rintro ⟨s, hs⟩
    obtain ⟨-, hvalid, hlight⟩ := valid_of_build hs
    refine ⟨hvalid, fun tag => ?_⟩
    by_cases htag : tag ∈ rules.map Rule.tag
    · exact (not_overweight_iff hvalid tag).mp (hlight tag htag)
    · exact weigh_le_of_not_mem_tags htag
  · rintro ⟨hvalid, hlight⟩
    exact ⟨_, build_of_light hvalid fun tag _ => (not_overweight_iff hvalid tag).mpr (hlight tag)⟩

/-- The rules of an accepted set are the declared ones. -/
theorem rules_of_build {mode : Mode} {rules : List (Rule Float)} {s : RuleSet Float} (h : build mode rules = .ok s) :
    s = .ofRules mode rules := by
  cases mode with
  | deterministic => exact (Except.ok.inj h).symm
  | stochastic => exact (valid_of_build h).1

/-- **What comes of declared rules.** A deterministic set is accepted whatever its weights are. A stochastic set is
accepted exactly when all weights are finite and not below zero and the weights of every tag, added in the order of the
declaration, come to the full weight at most. If some weight is not valid, the first such rule is the fault, whether or
not a tag has too much weight; otherwise, if one tag alone has too much weight, it is the fault, with this weight. An
accepted set has all rules that were declared: the positions of those of a tag stand in its index under this tag, and
under no other, in ascending order, and the rules that match the tag are those at these positions, that is, the declared
rules that have it, in their order. -/
theorem build_outcome (rules : List (Rule Float)) :
    let Valid (r : Rule Float) : Prop := r.weight.isFinite = true ∧ 0 ≤ r.weight
    let weight (tag : Tag) : Float := weigh (rules.filter fun r => r.tag = tag)
    (∃ s, build .deterministic rules = .ok s) ∧
    ((∃ s, build .stochastic rules = .ok s) ↔ (∀ r ∈ rules, Valid r) ∧ ∀ tag, weight tag ≤ fullWeight) ∧
    ((∃ r ∈ rules, ¬ Valid r) → ∃ before r after, rules = before ++ r :: after ∧ (∀ b ∈ before, Valid b) ∧ ¬ Valid r ∧
      build .stochastic rules = .error (.invalidWeight r.tag r.weight)) ∧
    ((∀ r ∈ rules, Valid r) → ∀ tag, fullWeight < weight tag → (∀ t, fullWeight < weight t → t = tag) →
      build .stochastic rules = .error (.overweight tag (weight tag))) ∧
    ∀ mode s, build mode rules = .ok s → s.mode = mode ∧ s.size = rules.length ∧ ∀ tag,
      let places := s.index.positions tag
      places.Pairwise (· < ·) ∧ (∀ i, i ∈ places ↔ ∃ r, rules[i]? = some r ∧ r.tag = tag) ∧
        (s.matching tag).map some = places.map (fun i => rules[i]?) ∧
        s.matching tag = rules.filter fun r => r.tag = tag := by
  intro Valid weight
  have hvalid : ∀ r : Rule Float, Valid r ↔ isWeight r.weight = true := fun r => isWeight_iff.symm
  refine ⟨⟨_, rfl⟩, ?_, ?_, ?_, ?_⟩
  · simp only [hvalid]
    exact build_ok_iff
  · intro hex
    obtain ⟨before, r, after, rfl, hbefore, hbad⟩ := exists_first hex
    have hgood : ∀ b ∈ before, Valid b := fun b hb => not_not.mp (hbefore b hb)
    exact ⟨before, r, after, rfl, hgood, hbad,
      build_of_invalid (fun b hb => (hvalid b).mp (hgood b hb)) (isWeight_eq_false_iff.mpr hbad)⟩
  · intro hall tag hover honly
    have hall : ∀ r ∈ rules, isWeight r.weight = true := fun r hr => (hvalid r).mp (hall r hr)
    have htag : tag ∈ rules.map Rule.tag := by
      by_contra hnone
      exact (not_overweight_iff hall tag).mpr (weigh_le_of_not_mem_tags hnone) hover
    exact build_of_overweight hall htag hover honly
  · intro mode s hs
    obtain rfl := rules_of_build hs
    refine ⟨rfl, rfl, fun tag => ?_⟩
    simp only [index_ofRules, matching_eq_filter]
    refine ⟨?_, fun i => ?_, (getElem?_positions_ofRules rules tag).symm, rfl⟩
    · rw [positions_ofRules]
      exact List.pairwise_findIdxs
    · rw [positions_ofRules, List.mem_findIdxs_iff_exists_getElem_pos]
      simp [List.getElem?_eq_some_iff]

end Foliage
