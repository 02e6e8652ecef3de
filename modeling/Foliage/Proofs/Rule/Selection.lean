import Foliage.Proofs.Double
import Foliage.Proofs.Rule.Acceptance

/-!
# Which rule is drawn

The running sums of the weights of a tag cut the draws into intervals: a draw falls to the rule at `k` when it is at or
above the sum of the weights before this rule, and below that sum with its own weight. A rule is picked at the first sum
that is above the draw (`pick_eq_some_iff`), hence by its interval; the intervals do not overlap and leave no gap up to
the total weight (`draws_partitioned`).

The sums need not be exact. It is enough that adding a weight never lowers them, that a weight of zero does not change
them, and that equals have equal sums (`Scalar.Accumulates`), which is so for doubles. A draw is compared with sums that
begin at zero and a total weight begins at the negative zero, but the two are never told apart (`sumTo_negZero`).
-/

namespace Foliage

/-- Numbers that are not below zero are in order, and adding one of them never lowers another; a zero adds nothing, the
negative zero is equal to zero, and equals have equal sums. -/
class Scalar.Accumulates (K : Type) [Scalar K] : Prop where
  zero_nonneg : (0 : K) ≤ 0
  negZero_nonneg : (0 : K) ≤ -0
  negZero_le : (-0 : K) ≤ 0
  nonneg_of_isWeight {w : K} : RuleSet.isWeight w = true → 0 ≤ w
  not_lt {a b : K} : 0 ≤ a → 0 ≤ b → (¬ a < b ↔ b ≤ a)
  le_trans {a b c : K} : 0 ≤ a → 0 ≤ b → 0 ≤ c → a ≤ b → b ≤ c → a ≤ c
  add_nonneg {a w : K} : 0 ≤ a → 0 ≤ w → 0 ≤ a + w
  le_add {a w : K} : 0 ≤ a → 0 ≤ w → a ≤ a + w
  add_le {a w : K} : 0 ≤ a → 0 ≤ w → w ≤ 0 → a + w ≤ a
  add_le_add {a b w : K} : 0 ≤ a → 0 ≤ b → 0 ≤ w → a ≤ b → b ≤ a → a + w ≤ b + w

section Doubles

open Double

theorem zero_le_iff_nonneg {a : Float} : 0 ≤ a ↔ NonNeg a := nonneg_iff rfl

/-- Sums of doubles are rounded, but never below what they are sums of. -/
instance : Scalar.Accumulates Float where
  zero_nonneg := zero_le_iff_nonneg.mpr (nonneg_zero rfl)
  negZero_nonneg := by decide +kernel
  negZero_le := by decide +kernel
  nonneg_of_isWeight h := by
    obtain ⟨hfinite, hneg⟩ := Bool.and_eq_true_iff.mp h
    rw [Bool.not_eq_true'] at hneg
    exact zero_le_iff_nonneg.mpr (nonneg_of_isFinite rfl hfinite (of_decide_eq_false hneg))
  not_lt {a b} ha hb := by
    have ha := zero_le_iff_nonneg.mp ha
    have hb := zero_le_iff_nonneg.mp hb
    exact (not_congr (lt_iff_level ha hb)).trans (not_lt.trans (le_iff_level hb ha).symm)
  le_trans {a b c} ha hb hc hab hbc := by
    have ha := zero_le_iff_nonneg.mp ha
    have hb := zero_le_iff_nonneg.mp hb
    have hc := zero_le_iff_nonneg.mp hc
    exact (le_iff_level ha hc).mpr (((le_iff_level ha hb).mp hab).trans ((le_iff_level hb hc).mp hbc))
  add_nonneg {a w} ha hw :=
    zero_le_iff_nonneg.mpr (nonneg_add (zero_le_iff_nonneg.mp ha) (zero_le_iff_nonneg.mp hw)).1
  le_add {a w} ha hw := by
    have ha := zero_le_iff_nonneg.mp ha
    obtain ⟨hsum, hle⟩ := nonneg_add ha (zero_le_iff_nonneg.mp hw)
    exact (le_iff_level ha hsum).mpr hle
  add_le {a w} ha hw hzero := by
    have ha := zero_le_iff_nonneg.mp ha
    have hw := zero_le_iff_nonneg.mp hw
    exact (le_iff_level (nonneg_add ha hw).1 ha).mpr (level_add_zero ha hw (level_eq_zero rfl hw hzero)).le
  add_le_add {a b w} ha hb hw hab hba := by
    have ha := zero_le_iff_nonneg.mp ha
    have hb := zero_le_iff_nonneg.mp hb
    have hw := zero_le_iff_nonneg.mp hw
    have hsame : level a = level b := ((le_iff_level ha hb).mp hab).antisymm ((le_iff_level hb ha).mp hba)
    exact (le_iff_level (nonneg_add ha hw).1 (nonneg_add hb hw).1).mpr (level_add_congr ha hb hw hsame).le

end Doubles

variable {K : Type} [Scalar K]

namespace RuleSet

/-- The sum of the weights of the first `k` rules, beginning with `sum`. -/
def sumTo (sum : K) (rs : List (Rule K)) (k : Nat) : K := (rs.take k).foldl (fun sum r => sum + r.weight) sum

/-- The sum of the weights of the first `k` rules of a tag. -/
def weightBefore (s : RuleSet K) (tag : Tag) (k : Nat) : K := weigh ((s.matching tag).take k)

/-- The draw is in the interval that the rule at `k` adds to the weights before it. -/
def FallsTo (s : RuleSet K) (tag : Tag) (d : K) (k : Nat) : Prop :=
  s.weightBefore tag k ≤ d ∧ d < s.weightBefore tag (k + 1)

end RuleSet

open RuleSet

/-! ## The first sum above a draw -/

theorem sumTo_succ (sum : K) {rs : List (Rule K)} {k : Nat} {r : Rule K} (h : rs[k]? = some r) :
    sumTo sum rs (k + 1) = sumTo sum rs k + r.weight := by
  rw [sumTo, List.take_add_one, h, List.foldl_append]
  rfl

theorem sumTo_of_length_le (sum : K) {rs : List (Rule K)} {k : Nat} (h : rs.length ≤ k) :
    sumTo sum rs (k + 1) = sumTo sum rs k := by
  rw [sumTo, sumTo, List.take_of_length_le h, List.take_of_length_le (Nat.le_succ_of_le h)]

/-- The rule is picked whose sum is the first one above the draw. -/
theorem pick_eq_some_iff {d sum : K} {rs : List (Rule K)} {r : Rule K} :
    pick d sum rs = some r ↔
      ∃ k, rs[k]? = some r ∧ d < sumTo sum rs (k + 1) ∧ ∀ j < k, ¬ d < sumTo sum rs (j + 1) := by
  induction rs generalizing sum with
  | nil => simp [pick]
  | cons r' rs ih =>
    rw [pick]
    split
    · rename_i hfirst
      constructor
      · rintro ⟨⟩
        exact ⟨0, rfl, hfirst, fun j hj => absurd hj (Nat.not_lt_zero j)⟩
      · rintro ⟨_ | k, hr, -, hbefore⟩
        · exact hr
        · exact absurd hfirst (hbefore 0 (Nat.succ_pos k))
    · rename_i hfirst
      rw [ih]
      constructor
      · rintro ⟨k, hr, hsum, hbefore⟩
        refine ⟨k + 1, hr, hsum, fun j hj => ?_⟩
        cases j with
        | zero => exact hfirst
        | succ j => exact hbefore j (Nat.lt_of_succ_lt_succ hj)
      · rintro ⟨_ | k, hr, hsum, hbefore⟩
        · exact absurd hsum hfirst
        · exact ⟨k, hr, hsum, fun j hj => hbefore (j + 1) (Nat.succ_lt_succ hj)⟩

/-- No rule is picked when no sum is above the draw. -/
theorem pick_eq_none_iff {d sum : K} {rs : List (Rule K)} :
    pick d sum rs = none ↔ ∀ j < rs.length, ¬ d < sumTo sum rs (j + 1) := by
  induction rs generalizing sum with
  | nil => simp [pick]
  | cons r rs ih =>
    rw [pick]
    split
    · rename_i hfirst
      exact ⟨nofun, fun h => absurd hfirst (h 0 (Nat.succ_pos _))⟩
    · rename_i hfirst
      rw [ih]
      constructor
      · rintro h (_ | j) hj
        · exact hfirst
        · exact h j (Nat.lt_of_succ_lt_succ hj)
      · exact fun h j hj => h (j + 1) (Nat.succ_lt_succ hj)

/-! ## Sums that are never lowered -/

section Sums

variable [Scalar.Accumulates K] {d : K} {rs : List (Rule K)}

open Scalar.Accumulates

theorem le_self_of_nonneg {a : K} (ha : 0 ≤ a) : a ≤ a :=
  le_trans ha (add_nonneg ha zero_nonneg) ha (le_add ha zero_nonneg) (add_le ha zero_nonneg zero_nonneg)

/-- From one place to the next all sums stay, or they all gain the same weight. -/
theorem sumTo_step (hrs : ∀ r ∈ rs, isWeight r.weight = true) (k : Nat) :
    (∀ a, sumTo a rs (k + 1) = sumTo a rs k) ∨ ∃ w, 0 ≤ w ∧ ∀ a, sumTo a rs (k + 1) = sumTo a rs k + w := by
  cases hr : rs[k]? with
  | none => exact .inl fun a => sumTo_of_length_le a (List.getElem?_eq_none_iff.mp hr)
  | some r =>
    have hw := nonneg_of_isWeight (hrs r (List.mem_of_getElem? hr))
    exact .inr ⟨r.weight, hw, fun a => sumTo_succ a hr⟩

theorem sumTo_next {k : Nat} (hrs : ∀ r ∈ rs, isWeight r.weight = true) (hk : 0 ≤ sumTo 0 rs k) :
    0 ≤ sumTo 0 rs (k + 1) ∧ sumTo 0 rs k ≤ sumTo 0 rs (k + 1) := by
  rcases sumTo_step hrs k with hsame | ⟨w, hw, hadd⟩
  · rw [hsame]
    exact ⟨hk, le_self_of_nonneg hk⟩
  · rw [hadd]
    exact ⟨add_nonneg hk hw, le_add hk hw⟩

theorem sumTo_nonneg (hrs : ∀ r ∈ rs, isWeight r.weight = true) (k : Nat) : 0 ≤ sumTo 0 rs k := by
  induction k with
  | zero => exact zero_nonneg
  | succ k ih => exact (sumTo_next hrs ih).1

theorem sumTo_mono (hrs : ∀ r ∈ rs, isWeight r.weight = true) {j k : Nat} (hjk : j ≤ k) :
    sumTo 0 rs j ≤ sumTo 0 rs k := by
  have hnonneg := sumTo_nonneg hrs
  induction k, hjk using Nat.le_induction with
  | base => exact le_self_of_nonneg (hnonneg j)
  | succ k _ ih => exact le_trans (hnonneg j) (hnonneg k) (hnonneg _) ih (sumTo_next hrs (hnonneg k)).2

/-- Sums that begin at the negative zero are equal to those that begin at zero. -/
theorem sumTo_negZero (hrs : ∀ r ∈ rs, isWeight r.weight = true) (k : Nat) :
    0 ≤ sumTo (-0) rs k ∧ sumTo (-0) rs k ≤ sumTo 0 rs k ∧ sumTo 0 rs k ≤ sumTo (-0) rs k := by
  induction k with
  | zero => exact ⟨negZero_nonneg, negZero_le, negZero_nonneg⟩
  | succ k ih =>
    rcases sumTo_step hrs k with hsame | ⟨w, hw, hadd⟩
    · rwa [hsame, hsame]
    · obtain ⟨hneg, hle, hge⟩ := ih
      have hk := sumTo_nonneg hrs k
      rw [hadd, hadd]
      exact ⟨add_nonneg hneg hw, add_le_add hneg hk hw hle hge, add_le_add hk hneg hw hge hle⟩

theorem sumTo_negZero_le_iff (hrs : ∀ r ∈ rs, isWeight r.weight = true) (hd : 0 ≤ d) (k : Nat) :
    sumTo (-0) rs k ≤ d ↔ sumTo 0 rs k ≤ d := by
  obtain ⟨hneg, hle, hge⟩ := sumTo_negZero hrs k
  have hk := sumTo_nonneg hrs k
  exact ⟨le_trans hk hneg hd hge, le_trans hneg hk hd hle⟩

theorem lt_sumTo_negZero_iff (hrs : ∀ r ∈ rs, isWeight r.weight = true) (hd : 0 ≤ d) (k : Nat) :
    d < sumTo (-0) rs k ↔ d < sumTo 0 rs k := by
  rw [← not_iff_not, not_lt hd (sumTo_negZero hrs k).1, not_lt hd (sumTo_nonneg hrs k)]
  exact sumTo_negZero_le_iff hrs hd k

/-- No sum up to the `k`-th is above a draw when the `k`-th is not. -/
theorem not_lt_sumTo_iff (hrs : ∀ r ∈ rs, isWeight r.weight = true) (hd : 0 ≤ d) (k : Nat) :
    (∀ j < k, ¬ d < sumTo 0 rs (j + 1)) ↔ sumTo 0 rs k ≤ d := by
  have hnonneg := sumTo_nonneg hrs
  constructor
  · intro h
    cases k with
    | zero => exact hd
    | succ k => exact (not_lt hd (hnonneg _)).mp (h k (Nat.lt_succ_self k))
  · intro h j hj
    exact (not_lt hd (hnonneg _)).mpr (le_trans (hnonneg _) (hnonneg _) hd (sumTo_mono hrs hj) h)

/-- A rule is picked where the draw is in the interval that the rule adds to the sums. -/
theorem pick_eq_some_iff_interval (hrs : ∀ r ∈ rs, isWeight r.weight = true) (hd : 0 ≤ d) {r : Rule K} :
    pick d 0 rs = some r ↔ ∃ k, rs[k]? = some r ∧ sumTo 0 rs k ≤ d ∧ d < sumTo 0 rs (k + 1) := by
  simp only [pick_eq_some_iff, not_lt_sumTo_iff hrs hd, and_comm]

theorem interval_unique (hrs : ∀ r ∈ rs, isWeight r.weight = true) (hd : 0 ≤ d) {j k : Nat}
    (hj : sumTo 0 rs j ≤ d ∧ d < sumTo 0 rs (j + 1)) (hk : sumTo 0 rs k ≤ d ∧ d < sumTo 0 rs (k + 1)) : j = k := by
  have hbefore : ∀ i l, i < l → sumTo 0 rs l ≤ d → ¬ d < sumTo 0 rs (i + 1) := fun i l hil hl =>
    (not_lt_sumTo_iff hrs hd l).mpr hl i hil
  rcases Nat.lt_trichotomy j k with h | h | h
  · exact absurd hj.2 (hbefore j k h hk.1)
  · exact h
  · exact absurd hk.2 (hbefore k j h hj.1)

/-- A rule that adds an interval has a weight above zero. -/
theorem weight_pos (hrs : ∀ r ∈ rs, isWeight r.weight = true) (hd : 0 ≤ d) {k : Nat} {r : Rule K}
    (hr : rs[k]? = some r) (hk : sumTo 0 rs k ≤ d ∧ d < sumTo 0 rs (k + 1)) : 0 < r.weight := by
  have hsum := sumTo_nonneg hrs k
  have hw := nonneg_of_isWeight (hrs r (List.mem_of_getElem? hr))
  obtain ⟨hlow, hhigh⟩ := hk
  rw [sumTo_succ 0 hr] at hhigh
  by_contra hzero
  have hsame := add_le hsum hw ((not_lt zero_nonneg hw).mp hzero)
  exact (not_lt hd (add_nonneg hsum hw)).mpr (le_trans (add_nonneg hsum hw) hsum hd hsame hlow) hhigh

end Sums

/-! ## Selecting -/

/-- **The draws are cut into intervals by the running sums.** For every set of stochastic rules that is accepted, every
tag and every draw that is not below zero: a rule is selected exactly when the draw falls to a place where it stands,
that is, when the draw is at or above the sum of the weights before it and below that sum with its own; the draw falls
to one place at most; no rule is selected exactly when the draw is not below the total weight, which is the sum up to
the last rule; and a rule that is selected has a weight above zero. -/
theorem draws_partitioned [Scalar.Accumulates K] {rules : List (Rule K)} {s : RuleSet K}
    (hs : RuleSet.build .stochastic rules = .ok s) (tag : Tag) {d : K} (hd : 0 ≤ d) :
    (∀ r, s.select tag d = some r ↔ ∃ k, (s.matching tag)[k]? = some r ∧ s.FallsTo tag d k) ∧
    (∀ j k, s.FallsTo tag d j → s.FallsTo tag d k → j = k) ∧
    (s.select tag d = none ↔ s.totalWeight tag ≤ d) ∧
    s.totalWeight tag = s.weightBefore tag (s.matching tag).length ∧
    ∀ r, s.select tag d = some r → 0 < r.weight := by
  obtain ⟨rfl, hweights⟩ := isWeight_of_build hs
  generalize hrs : (RuleSet.ofRules .stochastic rules).matching tag = rs
  have hvalid : ∀ r ∈ rs, isWeight r.weight = true := by
    rw [← hrs]
    exact fun r hr => hweights r (mem_matching.mp hr).1
  have hselect : (RuleSet.ofRules .stochastic rules).select tag d = pick d 0 rs := congrArg (pick d 0) hrs
  have hbefore : ∀ k, (RuleSet.ofRules .stochastic rules).weightBefore tag k = sumTo (-0) rs k := fun k =>
    congrArg (sumTo (-0) · k) hrs
  have htotal : (RuleSet.ofRules .stochastic rules).totalWeight tag = sumTo (-0) rs rs.length := by
    rw [totalWeight, hrs, sumTo, List.take_length]
    rfl
  simp only [FallsTo, hselect, hbefore, htotal, sumTo_negZero_le_iff hvalid hd, lt_sumTo_negZero_iff hvalid hd,
    true_and]
  refine ⟨fun r => pick_eq_some_iff_interval hvalid hd, fun j k => interval_unique hvalid hd, ?_, fun r hr => ?_⟩
  · rw [pick_eq_none_iff, not_lt_sumTo_iff hvalid hd]
  · obtain ⟨k, hk, hfalls⟩ := (pick_eq_some_iff_interval hvalid hd).mp hr
    exact weight_pos hvalid hd hk hfalls

/-- Doubles as weights, some of them zero, and a draw at the border of two intervals. -/
theorem draws_partitioned_border :
    let bud (weight : Float) : Rule Float := .constant (.nonterminal 'A') weight []
    let rules := [bud 0, bud 0.25, .constant .forward 1 [], bud 0, bud 0.5, bud 0]
    ∃ s, RuleSet.build .stochastic rules = .ok s ∧ s.FallsTo (.nonterminal 'A') 0.25 3 ∧
      s.select (.nonterminal 'A') 0.25 = some (bud 0.5) ∧ s.select (.nonterminal 'A') 0.75 = none := by
  intro bud rules
  have hbuild : RuleSet.build .stochastic rules = .ok (.ofRules .stochastic rules) := by
    refine build_of_acceptable ?_
    decide +kernel
  have hborder := draws_partitioned hbuild (.nonterminal 'A') (d := 0.25) (by decide +kernel)
  have hfull := draws_partitioned hbuild (.nonterminal 'A') (d := 0.75) (by decide +kernel)
  have hfalls : (RuleSet.ofRules .stochastic rules).FallsTo (.nonterminal 'A') 0.25 3 := by
    unfold FallsTo
    decide +kernel
  refine ⟨_, hbuild, hfalls, (hborder.1 _).mpr ⟨3, rfl, hfalls⟩, hfull.2.2.1.mpr ?_⟩
  decide +kernel

end Foliage
