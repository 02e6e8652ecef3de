import Foliage.Proofs.Derivation.Rewriting
import Foliage.Proofs.Interpreter.Lenient
import Foliage.Proofs.Ornament.Stamps

/-!
# Derived programs

Rules that replace no bracket, and whose outputs are balanced, derive balanced programs from a balanced start. Their
nesting grows by that of the outputs in every generation, whatever the draws are, so it is known before the program is
how deep a stack is enough to run it (`run_derived`).
-/

namespace Foliage

variable {σ K : Type} [Scalar K]

open Foliage.Derivation

/-- **Derived programs run.** When no rule replaces a bracket, every output for a symbol of the tag of its rule is
balanced and of nesting `k`, and the start is balanced and of nesting `a`, a derivation by any number of generations
and from any source of draws yields a balanced program that adds at most `k` to the nesting with each generation. Every
lenient interpreter that allows this depth, and has no ornament or one that can always be given, runs the program from
an empty stack to its end and leaves the stack empty. -/
theorem run_derived {rules : RuleSet K} {start : List (Symbol K)} {a k : Nat}
    (hrules : ∀ r ∈ rules.rules, r.tag ≠ .push ∧ r.tag ≠ .pop ∧ ∀ x : Symbol K, x.tag = r.tag →
      Balanced (r.production x) ∧ ∀ i, depthAt 0 (r.production x) i ≤ k)
    (hstart : Balanced start ∧ ∀ i, depthAt 0 start i ≤ a) (draw : σ → K × σ) (s : σ) (depth : Nat) :
    let program := (derive rules draw depth start s).symbols
    Balanced program ∧ (∀ i, depthAt 0 program i ≤ (a + k * depth : Nat)) ∧
      ∀ (τ : Type) [TurtleLike τ K] (it : Interpreter K) (turtle : τ), it.strict = false →
        a + k * depth ≤ it.maxStackDepth →
        (∀ stamp, it.ornament = some stamp → ∀ t : τ, (TurtleLike.stamp? t stamp).isSome) →
        (∃ report, (it.run program ⟨turtle, []⟩).result = .ok report) ∧
          (it.run program ⟨turtle, []⟩).machine.stack = [] := by
  intro program
  have hnests : rules.Nests k := by
    intro r hr
    obtain ⟨hpush, hpop, hout⟩ := hrules r hr
    exact ⟨⟨hpush, hpop⟩, fun x hx => closes_zero_iff.mpr (hout x hx)⟩
  have hcloses : Closes (a + k * depth) 0 program := by
    rw [Nat.mul_comm]
    exact closes_derive hnests depth (closes_zero_iff.mpr hstart) s
  obtain ⟨hbalanced, hdepth⟩ := closes_zero_iff.mp hcloses
  exact ⟨hbalanced, hdepth, fun _ _ it turtle hlenient hlimit hornament =>
    run_of_closes hcloses turtle hlimit hlenient hornament⟩

/-- Three generations of boughs that fork in brackets of their own, with a flower for an ornament, on a stack that is
just deep enough. -/
theorem run_derived_boughs :
    let _ : RandomSource UInt64 := ⟨fun s => (s, s + 1)⟩
    let bud : Symbol Float := .bare (.nonterminal 'A')
    let fork := [.bare .forward, .bare .push, .bare .push, bud, .bare .pop, .bare (.turn .yawLeft), bud, .bare .pop]
    let rules : RuleSet Float :=
      .ofRules .stochastic [.constant (.nonterminal 'A') 0.5 fork, .constant (.nonterminal 'A') 0.25 [.bare .ornament]]
    let flower : Ornament Float := ⟨#[.unitX, .unitY, .unitZ], [⟨0, 1, 2⟩], .unitZ⟩
    let program := (evolve rules 3 [.bare .push, bud, .bare .pop] (0 : UInt64)).symbols
    let it : Interpreter Float := ⟨7, false, some flower.stamp⟩
    let m : Machine (Turtle Float) := ⟨.ofConfig .standard, []⟩
    Balanced program ∧ (∃ report, (it.run program m).result = .ok report) ∧ (it.run program m).machine.stack = [] := by
  intro _ bud fork rules flower program it m
  have hfork : Closes 2 0 fork := of_decide_eq_true rfl
  have hflower : Closes 2 0 [(.bare .ornament : Symbol Float)] := of_decide_eq_true rfl
  have hstart : Closes 1 0 [.bare .push, bud, .bare .pop] := of_decide_eq_true rfl
  have hrules : ∀ r ∈ rules.rules, r.tag ≠ .push ∧ r.tag ≠ .pop ∧ ∀ x : Symbol Float, x.tag = r.tag →
      Balanced (r.production x) ∧ ∀ i, depthAt 0 (r.production x) i ≤ 2 := by
    intro r hr
    rcases List.mem_cons.mp hr with rfl | hr
    · exact ⟨by decide, by decide, fun _ _ => closes_zero_iff.mp hfork⟩
    · obtain rfl := List.mem_singleton.mp hr
      exact ⟨by decide, by decide, fun _ _ => closes_zero_iff.mp hflower⟩
  have hwhole : flower.Whole := by simp [Ornament.Whole, Triangle.corners, flower]
  have htotal : ∀ stamp, it.ornament = some stamp → ∀ t : Turtle Float, (TurtleLike.stamp? t stamp).isSome := by
    intro stamp hstamp t
    obtain rfl := Option.some.inj hstamp
    exact isSome_turtle_stamp (total_of_whole hwhole) t
  obtain ⟨hbalanced, -, hrun⟩ := run_derived hrules (closes_zero_iff.mp hstart) Random.unit (0 : UInt64) 3
  have hprogram : program = (derive rules Random.unit 3 [.bare .push, bud, .bare .pop] (0 : UInt64)).symbols := rfl
  rw [← hprogram] at hbalanced hrun
  -- with its value at hand, the unifier would run the derivation
  clear_value program
  exact ⟨hbalanced, hrun (Turtle Float) it m.turtle rfl (Nat.le_refl 7) htotal⟩

end Foliage
