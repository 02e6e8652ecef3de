import Foliage.Proofs.Derivation.Draws
import Foliage.Proofs.Rule.Selection

/-!
# Derivations that draws do not change

When every draw of a derivation leads to the same replacement of a symbol, the derivation is the iterate of one map of
symbols (`derive_of_settled`). This has two uses.

A derivation by a map of symbols rewrites the two parts of a program apart from each other, and hence every symbol by
itself (`context_free`). This is how derivations without randomness go, and all derivations of deterministic sets.

When the first rule of every tag takes up all draws, a stochastic set derives what the deterministic set of the same
rules does (`derive_of_full_first`).
-/

namespace Foliage

variable {σ K : Type} [Scalar K] {rules : RuleSet K} {f : Symbol K → List (Symbol K)}

/-- What a symbol is replaced by when the draw is zero. -/
def RuleSet.rewriteAtZero (rules : RuleSet K) (x : Symbol K) : List (Symbol K) := rules.rewriteOne 0 x

open Foliage.Derivation

/-! ## Maps of symbols -/

theorem rewriteBy_of_settled {draws : Nat → K} (h : ∀ n x, rules.rewriteOne (draws n) x = f x)
    (xs : List (Symbol K)) : rules.rewriteBy draws xs = xs.flatMap f := by
  induction xs generalizing draws with
  | nil => rfl
  | cons x xs ih => rw [rewriteBy_cons, h, ih fun n => h _, List.flatMap_cons]

/-- **A derivation whose draws all lead to the same** iterates one map of symbols. -/
theorem derive_of_settled {draw : σ → K × σ} {s : σ} (h : ∀ n x, rules.rewriteOne (drawAt draw s n) x = f x)
    (depth : Nat) (start : List (Symbol K)) :
    (derive rules draw depth start s).symbols = (List.flatMap f)^[depth] start := by
  induction depth with
  | zero => rfl
  | succ depth ih =>
    rw [symbols_derive_succ, rewriteBy_of_settled fun n => h _, ih, Function.iterate_succ_apply']

omit [Scalar K] in
theorem iterate_flatMap_append (depth : Nat) (xs ys : List (Symbol K)) :
    (List.flatMap f)^[depth] (xs ++ ys) = (List.flatMap f)^[depth] xs ++ (List.flatMap f)^[depth] ys := by
  induction depth generalizing xs ys with
  | zero => rfl
  | succ depth ih => simp only [Function.iterate_succ_apply, List.flatMap_append, ih]

omit [Scalar K] in
theorem iterate_flatMap_eq (depth : Nat) (xs : List (Symbol K)) :
    (List.flatMap f)^[depth] xs = xs.flatMap fun x => (List.flatMap f)^[depth] [x] := by
  induction xs with
  | nil => exact Function.iterate_fixed List.flatMap_nil depth
  | cons x xs ih => rw [← List.singleton_append, iterate_flatMap_append, ih, List.flatMap_append, List.flatMap_singleton]

/-! ## Symbol by symbol -/

/-- Without a source all draws are zero. -/
theorem evolveAtZero_eq (rules : RuleSet K) (depth : Nat) (start : List (Symbol K)) :
    (evolveAtZero rules depth start).symbols = (List.flatMap rules.rewriteAtZero)^[depth] start :=
  derive_of_settled (fun _ _ => rfl) depth start

theorem evolve_of_deterministic [RandomSource σ] (h : rules.mode = .deterministic) (depth : Nat)
    (start : List (Symbol K)) (s : σ) :
    (evolve rules depth start s).symbols = (List.flatMap rules.rewriteAtZero)^[depth] start :=
  derive_of_settled (fun _ x => rewriteOne_of_deterministic h _ 0 x) depth start

/-- **Derivations are free of context.** A derivation without randomness takes two programs in a row to what it takes
each of them to, in a row, and hence a program to what it takes its symbols to one by one; the set may be deterministic
or stochastic. A deterministic set does so with any sources of randomness, one for each derivation. -/
theorem context_free (rules : RuleSet K) (depth : Nat) :
    (∀ xs ys, (evolveAtZero rules depth (xs ++ ys)).symbols =
      (evolveAtZero rules depth xs).symbols ++ (evolveAtZero rules depth ys).symbols) ∧
    (∀ xs, (evolveAtZero rules depth xs).symbols = xs.flatMap fun x => (evolveAtZero rules depth [x]).symbols) ∧
    (rules.mode = .deterministic →
      ∀ (ρ σ τ : Type) [RandomSource ρ] [RandomSource σ] [RandomSource τ] (r : ρ),
        (∀ xs ys (s : σ) (t : τ), (evolve rules depth (xs ++ ys) r).symbols =
          (evolve rules depth xs s).symbols ++ (evolve rules depth ys t).symbols) ∧
        ∀ xs (s : Symbol K → σ),
          (evolve rules depth xs r).symbols = xs.flatMap fun x => (evolve rules depth [x] (s x)).symbols) := by
  refine ⟨fun xs ys => ?_, fun xs => ?_, fun h ρ σ τ _ _ _ r => ⟨fun xs ys s t => ?_, fun xs s => ?_⟩⟩
  · simp only [evolveAtZero_eq]
    exact iterate_flatMap_append depth xs ys
  · simp only [evolveAtZero_eq]
    exact iterate_flatMap_eq depth xs
  · simp only [evolve_of_deterministic h]
    exact iterate_flatMap_append depth xs ys
  · simp only [evolve_of_deterministic h]
    exact iterate_flatMap_eq depth xs

/-! ## Rules that take up all draws -/

omit [Scalar K] in
theorem head?_matching (tag : Tag) : (rules.matching tag).head? = rules.rules.find? fun r => r.tag = tag := by
  rw [matching_eq_filter, List.head?_filter]

/-- The first rule of a tag is selected for a draw below its weight. -/
theorem select_of_first (hmode : rules.mode = .stochastic) {tag : Tag} {d : K} {r : Rule K}
    (hr : rules.rules.find? (fun r => r.tag = tag) = some r) (hd : d < 0 + r.weight) :
    rules.select tag d = some r := by
  rw [← head?_matching] at hr
  obtain ⟨rs, hrs⟩ := List.head?_eq_some_iff.mp hr
  simp only [RuleSet.select, hmode, hrs, RuleSet.pick]
  exact if_pos hd

/-- Where the first rule of every tag is selected, the set rewrites as if it were deterministic. -/
theorem rewriteOne_eq_of_first {d : K}
    (h : ∀ tag r, rules.rules.find? (fun r => r.tag = tag) = some r → rules.select tag d = some r) (x : Symbol K) :
    rules.rewriteOne d x = RuleSet.rewriteAtZero (.ofRules .deterministic rules.rules) x := by
  unfold RuleSet.rewriteAtZero RuleSet.rewriteOne RuleSet.governs
  have hsame : (RuleSet.ofRules .deterministic rules.rules).matching x.tag = rules.matching x.tag := by
    rw [matching_eq_filter, matching_eq_filter]
    rfl
  rw [hsame]
  cases hrules : rules.matching x.tag with
  | nil => rfl
  | cons r rs =>
    have hfirst := h x.tag r (by rw [← head?_matching, hrules]; rfl)
    rw [hfirst, select_of_deterministic rfl, hsame, hrules]
    rfl

open Double in
/-- A draw from the unit interval is below every weight that is one or more. -/
theorem lt_of_full {d w : Float} (hd : 0 ≤ d) (hone : d < 1) (hw : RuleSet.isWeight w = true) (hfull : 1 ≤ w) :
    d < 0 + w := by
  have hd' := zero_le_iff_nonneg.mp hd
  have hw' := zero_le_iff_nonneg.mp (Scalar.Accumulates.nonneg_of_isWeight hw)
  have hone' : NonNeg 1 := zero_le_iff_nonneg.mp (by decide +kernel)
  have hzero : NonNeg (0 : Float) := nonneg_zero rfl
  have hnone : level (0 : Float) = 0 := level_eq_zero rfl hzero (zero_le_iff_nonneg.mpr hzero)
  have hlevel : level (0 + w) = level w := level_zero_add hzero hw' hnone
  refine (lt_iff_level hd' (nonneg_add hzero hw').1).mpr ?_
  calc level d < level 1 := (lt_iff_level hd' hone').mp hone
    _ ≤ level w := (le_iff_level hone' hw').mp hfull
    _ = level (0 + w) := hlevel.symm

/-- **First rules of full weight settle a derivation.** When a stochastic set is accepted in which the first rule of
every tag has a weight of one at least, the deterministic set of the same rules is accepted too, and the two derive the
same programs from every start in any number of generations, whatever draws from the unit interval the stochastic set
takes, and whatever source the deterministic one is given. -/
theorem derive_of_full_first {rules : List (Rule Float)} {stochastic : RuleSet Float}
    (hbuild : RuleSet.build .stochastic rules = .ok stochastic)
    (hfirst : ∀ tag r, rules.find? (fun r => r.tag = tag) = some r → 1 ≤ r.weight)
    {draw : σ → Float × σ} {s : σ} (hdraws : ∀ n, 0 ≤ drawAt draw s n ∧ drawAt draw s n < 1) :
    ∃ deterministic, RuleSet.build .deterministic rules = .ok deterministic ∧ ∀ depth start,
      (derive stochastic draw depth start s).symbols = (evolveAtZero deterministic depth start).symbols ∧
      ∀ (τ : Type) [RandomSource τ] (t : τ),
        (derive stochastic draw depth start s).symbols = (evolve deterministic depth start t).symbols := by
  obtain ⟨rfl, hweights⟩ := isWeight_of_build hbuild
  have hsettled : ∀ n x, RuleSet.rewriteOne (.ofRules .stochastic rules) (drawAt draw s n) x =
      RuleSet.rewriteAtZero (.ofRules .deterministic rules) x := by
    intro n x
    refine rewriteOne_eq_of_first (fun tag r hr => select_of_first rfl hr ?_) x
    obtain ⟨hnonneg, hone⟩ := hdraws n
    exact lt_of_full hnonneg hone (hweights r (List.mem_of_find?_eq_some hr)) (hfirst tag r hr)
  refine ⟨_, rfl, fun depth start => ⟨?_, fun τ _ t => ?_⟩⟩
  · rw [derive_of_settled hsettled, evolveAtZero_eq]
  · rw [derive_of_settled hsettled, evolve_of_deterministic rfl]

/-- A fork of full weight in front of a rule with a little more weight, and the least and the greatest draw in turn. -/
theorem derive_of_full_first_forks :
    letI : RandomSource Bool := ⟨fun high => (if high then 0xffffffffffffffff else 0, !high)⟩
    let bud : Symbol Float := .bare (.nonterminal 'A')
    let rules : List (Rule Float) :=
      [.constant (.nonterminal 'A') 1 [.bare .forward, bud, bud], .constant (.nonterminal 'A') 1e-10 []]
    ∃ stochastic, RuleSet.build .stochastic rules = .ok stochastic ∧
      (evolve stochastic 2 [bud] true).symbols =
        [.bare .forward, .bare .forward, bud, bud, .bare .forward, bud, bud] := by
  let _ : RandomSource Bool := ⟨fun high => (if high then 0xffffffffffffffff else 0, !high)⟩
  intro bud rules
  have hbuild : RuleSet.build .stochastic rules = .ok (.ofRules .stochastic rules) := by
    refine build_of_acceptable ?_
    decide +kernel
  have hfirst : ∀ tag r, rules.find? (fun r => r.tag = tag) = some r → 1 ≤ r.weight := by
    intro tag r hr
    by_cases htag : tag = .nonterminal 'A'
    · subst htag
      obtain rfl := Option.some.inj hr
      show (1 : Float) ≤ 1
      decide +kernel
    · have hnone : rules.find? (fun r => r.tag = tag) = none := by
        simp [rules, Rule.constant, Ne.symm htag]
      rw [hnone] at hr
      cases hr
  have hunit : ∀ high : Bool, 0 ≤ (Random.unit high : Float × Bool).1 ∧ (Random.unit high : Float × Bool).1 < 1 := by
    decide +kernel
  obtain ⟨deterministic, hdeterministic, hsame⟩ := derive_of_full_first hbuild hfirst (s := true) fun n => hunit _
  obtain rfl := Except.ok.inj hdeterministic
  exact ⟨_, hbuild, (hsame 2 [bud]).1⟩

end Foliage
