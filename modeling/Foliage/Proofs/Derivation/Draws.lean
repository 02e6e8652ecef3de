import Foliage.Proofs.Derivation.Rewriting
import Mathlib.Algebra.GroupWithZero.Nat
import Mathlib.Logic.Function.Iterate

/-!
# The draws of a derivation

`sourceAfter draw s n` is the source `s` after `n` draws, and `drawAt draw s n` the draw with the number `n`. With
numbered draws a generation needs no source: the symbols in front of a symbol tell how many draws have been taken
before it (`RuleSet.drawsFor`), so that the symbol is replaced by the rule for the draw of this number
(`RuleSet.rewriteBy`), and the source is left after as many draws as there are symbols with rules (`generation_eq`).

A derivation iterates its generations on the symbols and the source together (`derive_eq_iterate`). Hence it can be
interrupted and resumed (`derive_add`), and the draws of a generation are numbered from the total of the generations
before it (`source_derive`, `symbols_derive_succ`).
-/

namespace Foliage

variable {σ K : Type}

/-! ## Numbered draws -/

/-- A source after some draws. -/
def sourceAfter (draw : σ → K × σ) (s : σ) (n : Nat) : σ := (fun s => (draw s).2)^[n] s

/-- The draw with a number, counted from zero. -/
def drawAt (draw : σ → K × σ) (s : σ) (n : Nat) : K := (draw (sourceAfter draw s n)).1

section Numbered

variable {draw : σ → K × σ} {s : σ}

@[simp] theorem sourceAfter_zero : sourceAfter draw s 0 = s := rfl

@[simp] theorem sourceAfter_one : sourceAfter draw s 1 = (draw s).2 := rfl

theorem sourceAfter_add (m n : Nat) : sourceAfter draw s (m + n) = sourceAfter draw (sourceAfter draw s m) n := by
  rw [Nat.add_comm]
  exact Function.iterate_add_apply _ n m s

theorem drawAt_sourceAfter (m : Nat) : drawAt draw (sourceAfter draw s m) = fun n => drawAt draw s (m + n) := by
  funext n
  rw [drawAt, drawAt, sourceAfter_add]

end Numbered

namespace RuleSet

/-- Some rule has the tag of a symbol. -/
def governs (rules : RuleSet K) (x : Symbol K) : Bool := !(rules.matching x.tag).isEmpty

/-- The number of draws that a generation takes: one for every symbol with a rule when the set is stochastic, and none
when it is deterministic. -/
def drawsFor (rules : RuleSet K) (xs : List (Symbol K)) : Nat :=
  match rules.mode with
  | .deterministic => 0
  | .stochastic => xs.countP rules.governs

variable [Scalar K]

/-- What a symbol with a rule is replaced by for a draw; other symbols stay. -/
def rewriteOne (rules : RuleSet K) (d : K) (x : Symbol K) : List (Symbol K) :=
  if rules.governs x then Derivation.replace (rules.select x.tag d) x else [x]

/-- The next generation when draws are numbered: every symbol is replaced for the draw whose number is that of the draws
taken for the symbols in front of it. -/
def rewriteBy (rules : RuleSet K) (draws : Nat → K) (xs : List (Symbol K)) : List (Symbol K) :=
  (xs.mapIdx fun i x => rules.rewriteOne (draws (rules.drawsFor (xs.take i))) x).flatten

end RuleSet

variable {rules : RuleSet K}

@[simp] theorem drawsFor_nil : rules.drawsFor [] = 0 := by
  unfold RuleSet.drawsFor
  split <;> rfl

theorem drawsFor_cons (x : Symbol K) (xs : List (Symbol K)) :
    rules.drawsFor (x :: xs) = rules.drawsFor [x] + rules.drawsFor xs := by
  unfold RuleSet.drawsFor
  split
  · rfl
  · rw [← List.singleton_append, List.countP_append]

theorem drawsFor_of_stochastic (h : rules.mode = .stochastic) : rules.drawsFor = fun xs => xs.countP rules.governs := by
  funext xs
  simp only [RuleSet.drawsFor, h]

variable [Scalar K] {draw : σ → K × σ}

open Foliage.Derivation

theorem rewriteBy_cons (draws : Nat → K) (x : Symbol K) (xs : List (Symbol K)) :
    rules.rewriteBy draws (x :: xs) =
      rules.rewriteOne (draws 0) x ++ rules.rewriteBy (fun n => draws (rules.drawsFor [x] + n)) xs := by
  simp only [RuleSet.rewriteBy, List.mapIdx_cons, List.flatten_cons, List.take_zero, drawsFor_nil, List.take_succ_cons]
  simp only [drawsFor_cons x (List.take _ xs)]

/-! ## One generation -/

/-- A deterministic set pays no heed to draws. -/
theorem select_of_deterministic (h : rules.mode = .deterministic) (tag : Tag) (d : K) :
    rules.select tag d = (rules.matching tag).head? := by
  simp only [RuleSet.select, h]

theorem rewriteOne_of_deterministic (h : rules.mode = .deterministic) (d e : K) (x : Symbol K) :
    rules.rewriteOne d x = rules.rewriteOne e x := by
  simp only [RuleSet.rewriteOne, select_of_deterministic h]

/-- A symbol takes a draw when it has a rule of a stochastic set, and is replaced for it. -/
theorem successor_eq (s : σ) (x : Symbol K) :
    successor rules draw s x = (rules.rewriteOne (drawAt draw s 0) x, sourceAfter draw s (rules.drawsFor [x])) := by
  unfold successor RuleSet.drawsFor
  cases hmode : rules.mode with
  | deterministic =>
    simp only [RuleSet.rewriteOne, RuleSet.governs, select_of_deterministic hmode, sourceAfter_zero]
    cases rules.matching x.tag <;> rfl
  | stochastic =>
    cases hrules : (rules.matching x.tag).isEmpty <;>
      simp [RuleSet.rewriteOne, RuleSet.governs, hrules, drawAt]

/-- **One generation** replaces the symbols for the next draws in their order, and takes no others. -/
theorem generation_eq (xs : List (Symbol K)) (s : σ) :
    generation rules draw xs s = (rules.rewriteBy (drawAt draw s) xs, sourceAfter draw s (rules.drawsFor xs)) := by
  induction xs generalizing s with
  | nil => rw [generation_nil, drawsFor_nil]; rfl
  | cons x xs ih =>
    rw [generation_cons, successor_eq, ih, rewriteBy_cons, drawsFor_cons x xs, sourceAfter_add,
      drawAt_sourceAfter]

/-! ## Several generations -/

theorem steps_eq_iterate (depth number : Nat) (d : Derivation σ K) :
    ((steps rules draw depth number d).symbols, (steps rules draw depth number d).source) =
      (fun p => generation rules draw p.1 p.2)^[depth] (d.symbols, d.source) := by
  induction depth generalizing number d with
  | zero => rfl
  | succ depth ih => exact ih (number + 1) (step rules draw number d)

/-- A derivation iterates its generations on the symbols and the source. -/
theorem derive_eq_iterate (depth : Nat) (start : List (Symbol K)) (s : σ) :
    ((derive rules draw depth start s).symbols, (derive rules draw depth start s).source) =
      (fun p => generation rules draw p.1 p.2)^[depth] (start, s) :=
  steps_eq_iterate depth 1 ⟨start, s, #[]⟩

/-- A derivation can be interrupted and resumed. -/
theorem derive_add (m n : Nat) (start : List (Symbol K)) (s : σ) :
    let first := derive rules draw m start s
    let second := derive rules draw n first.symbols first.source
    let whole := derive rules draw (m + n) start s
    whole.symbols = second.symbols ∧ whole.source = second.source := by
  intro first second whole
  refine Prod.ext_iff.mp (?_ : (whole.symbols, whole.source) = (second.symbols, second.source))
  rw [derive_eq_iterate, derive_eq_iterate, derive_eq_iterate, Nat.add_comm]
  exact Function.iterate_add_apply _ n m (start, s)

/-- The last generation of a derivation. -/
theorem derive_succ (depth : Nat) (start : List (Symbol K)) (s : σ) :
    let before := derive rules draw depth start s
    let whole := derive rules draw (depth + 1) start s
    whole.symbols = rules.rewriteBy (drawAt draw before.source) before.symbols ∧
      whole.source = sourceAfter draw before.source (rules.drawsFor before.symbols) := by
  intro before whole
  have h : (whole.symbols, whole.source) = generation rules draw before.symbols before.source := by
    rw [derive_eq_iterate, Function.iterate_succ_apply', ← derive_eq_iterate]
  rw [generation_eq] at h
  exact Prod.ext_iff.mp h

/-- The number of draws that a derivation takes: those of its generations, each for the symbols that it finds. -/
def drawsTaken (rules : RuleSet K) (draw : σ → K × σ) (start : List (Symbol K)) (s : σ) (depth : Nat) : Nat :=
  ((List.range depth).map fun g => rules.drawsFor (derive rules draw g start s).symbols).sum

theorem drawsTaken_succ (start : List (Symbol K)) (s : σ) (depth : Nat) :
    drawsTaken rules draw start s (depth + 1) =
      drawsTaken rules draw start s depth + rules.drawsFor (derive rules draw depth start s).symbols := by
  simp [drawsTaken, List.range_succ]

/-- A derivation leaves the source after the draws of its generations. -/
theorem source_derive (rules : RuleSet K) (draw : σ → K × σ) (depth : Nat) (start : List (Symbol K)) (s : σ) :
    (derive rules draw depth start s).source = sourceAfter draw s (drawsTaken rules draw start s depth) := by
  induction depth with
  | zero => rfl
  | succ depth ih => rw [(derive_succ depth start s).2, ih, drawsTaken_succ, sourceAfter_add]

/-- The last generation takes the draws behind those of the generations before it. -/
theorem symbols_derive_succ (rules : RuleSet K) (draw : σ → K × σ) (depth : Nat) (start : List (Symbol K)) (s : σ) :
    (derive rules draw (depth + 1) start s).symbols =
      rules.rewriteBy (fun n => drawAt draw s (drawsTaken rules draw start s depth + n))
        (derive rules draw depth start s).symbols := by
  rw [(derive_succ depth start s).1, source_derive rules draw depth, drawAt_sourceAfter]

/-! ## Deterministic sets -/

theorem rewriteBy_of_deterministic (h : rules.mode = .deterministic) (draws draws' : Nat → K) (xs : List (Symbol K)) :
    rules.rewriteBy draws xs = rules.rewriteBy draws' xs := by
  refine congrArg (fun f => (xs.mapIdx f).flatten) ?_
  funext i x
  exact rewriteOne_of_deterministic h _ _ x

/-- A deterministic set derives the same symbols from all sources. -/
theorem symbols_of_deterministic {τ : Type} (h : rules.mode = .deterministic) (draw' : τ → K × τ) (depth : Nat)
    (start : List (Symbol K)) (s : σ) (s' : τ) :
    (derive rules draw depth start s).symbols = (derive rules draw' depth start s').symbols := by
  induction depth with
  | zero => rfl
  | succ depth ih =>
    rw [(derive_succ depth start s).1, (derive_succ depth start s').1, ih]
    exact rewriteBy_of_deterministic h _ _ _

/-- A deterministic set leaves the source alone. -/
theorem source_of_deterministic (h : rules.mode = .deterministic) (depth : Nat) (start : List (Symbol K)) (s : σ) :
    (derive rules draw depth start s).source = s := by
  induction depth with
  | zero => rfl
  | succ depth ih =>
    rw [(derive_succ depth start s).2, ih, RuleSet.drawsFor, h]
    rfl

/-! ## Evolution -/

/-- **The draws of an evolution.** An evolution can be interrupted after any generation and resumed with the symbols and
the source that it has then. A stochastic set takes one draw for every symbol that has a rule, whatever the weights
are: the draws of a generation follow those of the generations before it, and in it a symbol takes the draw behind those
of the symbols in front of it. A deterministic set takes no draws, and evolves as it does without a source. -/
theorem evolve_draws [RandomSource σ] (rules : RuleSet K) (start : List (Symbol K)) (s : σ) :
    (∀ m n,
      let first := evolve rules m start s
      let second := evolve rules n first.symbols first.source
      let whole := evolve rules (m + n) start s
      whole.symbols = second.symbols ∧ whole.source = second.source) ∧
    (rules.mode = .stochastic → ∀ depth,
      let before := evolve rules depth start s
      let taken := ((List.range depth).map fun g => (evolve rules g start s).symbols.countP rules.governs).sum
      before.source = sourceAfter (Random.unit (K := K)) s taken ∧
      (evolve rules (depth + 1) start s).symbols = (before.symbols.mapIdx fun i x =>
        if rules.governs x then
          replace (rules.select x.tag (drawAt Random.unit s (taken + (before.symbols.take i).countP rules.governs))) x
        else [x]).flatten) ∧
    (rules.mode = .deterministic → ∀ depth,
      (evolve rules depth start s).source = s ∧
      (evolve rules depth start s).symbols = (evolveAtZero rules depth start).symbols) := by
  refine ⟨fun m n => derive_add m n start s, fun h depth => ?_, fun h depth => ?_⟩
  · have htaken : drawsTaken rules Random.unit start s depth =
        ((List.range depth).map fun g => (evolve rules g start s).symbols.countP rules.governs).sum := by
      rw [drawsTaken, drawsFor_of_stochastic h]
      rfl
    have hsymbols := symbols_derive_succ rules Random.unit depth start s
    rw [RuleSet.rewriteBy, drawsFor_of_stochastic h, htaken] at hsymbols
    exact ⟨(source_derive rules Random.unit depth start s).trans (by rw [htaken]), hsymbols⟩
  · exact ⟨source_of_deterministic h depth start s, symbols_of_deterministic h _ depth start s ()⟩

/-- A rule without weight never applies, and yet every symbol that it is for takes a draw in every generation. -/
example :
    letI : RandomSource Nat := ⟨fun taken => (0, taken + 1)⟩
    let rules : RuleSet Float := .ofRules .stochastic [.constant .trunk 0 []]
    (evolve rules 3 [.bare .trunk, .bare .forward, .bare .trunk] (0 : Nat)).source = 6 := by
  decide

end Foliage
