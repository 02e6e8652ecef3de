import Foliage.Event
import Foliage.Random
import Foliage.Rule

/-!
# Derivations

In every generation of a derivation each symbol is replaced by the output of the rule that applies to it, or kept
when none does, from left to right; what a generation produces is replaced by the next one only.

A stochastic set takes one draw for every symbol that has a rule at all, and a deterministic set takes none. The source
of the draws is a parameter: `evolve` takes them from a source of randomness, `evolveAtZero` has zero for every
draw.
-/

namespace Foliage

/-- The symbols of a generation, the source of further draws, and the events so far. -/
structure Derivation (σ K : Type) where
  symbols : List (Symbol K)
  source : σ
  events : Array (Event K)

namespace Derivation

variable {σ K : Type} [Scalar K]

/-- What an optional rule makes of a symbol. -/
def replace (rule : Option (Rule K)) (x : Symbol K) : List (Symbol K) :=
  match rule with
  | some r => r.production x
  | none => [x]

/-- What replaces a symbol, and the source after the draw that this took. -/
def successor (rules : RuleSet K) (draw : σ → K × σ) (s : σ) (x : Symbol K) : List (Symbol K) × σ :=
  match rules.mode with
  | .deterministic => (replace (rules.select x.tag 0) x, s)
  | .stochastic =>
    if (rules.matching x.tag).isEmpty then ([x], s)
    else
      let (d, s) := draw s
      (replace (rules.select x.tag d) x, s)

/-- The symbols of the next generation, and the source after it. -/
def generation (rules : RuleSet K) (draw : σ → K × σ) (xs : List (Symbol K)) (s : σ) : List (Symbol K) × σ :=
  let (out, s) := xs.foldl
    (fun (out, s) x =>
      let (ys, s) := successor rules draw s x
      (out ++ ys, s))
    ((#[] : Array (Symbol K)), s)
  (out.toList, s)

/-- One generation, which has the given number. -/
def step (rules : RuleSet K) (draw : σ → K × σ) (number : Nat) (d : Derivation σ K) : Derivation σ K :=
  let (symbols, source) := generation rules draw d.symbols d.source
  ⟨symbols, source, d.events.push (.generation number d.symbols.length symbols.length)⟩

/-- As many generations as `depth` says; the first one has the given number. -/
def steps (rules : RuleSet K) (draw : σ → K × σ) : (depth number : Nat) → Derivation σ K → Derivation σ K
  | 0, _, d => d
  | depth + 1, number, d => steps rules draw depth (number + 1) (step rules draw number d)

/-- The derivation from `start` by `depth` generations. -/
def derive (rules : RuleSet K) (draw : σ → K × σ) (depth : Nat) (start : List (Symbol K)) (s : σ) :
    Derivation σ K :=
  steps rules draw depth 1 ⟨start, s, #[]⟩

/-- The derivation whose draws come from a source of randomness. -/
def evolve [RandomSource σ] (rules : RuleSet K) (depth : Nat) (start : List (Symbol K)) (s : σ) : Derivation σ K :=
  derive rules Random.unit depth start s

/-- The derivation without randomness, in which the first rule of positive weight always applies. -/
def evolveAtZero (rules : RuleSet K) (depth : Nat) (start : List (Symbol K)) : Derivation Unit K :=
  derive rules (fun s => (0, s)) depth start ()

end Derivation

/-- A start, the rules for its symbols, and the number of generations. -/
structure Grammar (K : Type) where
  start : List (Symbol K)
  rules : RuleSet K
  depth : Nat

def Grammar.derive {σ K : Type} [RandomSource σ] [Scalar K] (g : Grammar K) (s : σ) : Derivation σ K :=
  Derivation.evolve g.rules g.depth g.start s

end Foliage
