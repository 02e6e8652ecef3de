import Foliage.Preset

/-!
# Bush

A stochastic bush with polygon leaves and flower stalks that carry an ornament. `A` is a bud that puts out boughs, of
which some bear a leaf `L` and some a flower stalk `B`; the outline of a leaf is two times three sides with half a turn
between them; every segment grows longer and puts out leaves.
-/

namespace Foliage.Preset

structure BushParams (K : Type) where
  depth : Nat
  stepSize : K
  /-- In degrees. -/
  stepAngle : K
  radius : K

/-- A bush of seven generations. -/
def BushParams.standard {K : Type} [Scalar K] : BushParams K := ⟨7, 0.5, 22.5, 0.1⟩

variable {K : Type} [Scalar K] [Numeral K]

def bushRules : Except Notation.ParseError (List (Rule K)) := do
  return [
    ← noted (.nonterminal 'A') 0.34 "[&FLA]/////[&FLA]///////[FBA]",
    ← noted (.nonterminal 'A') 0.33 "[&LA]/////[&FLA]///////[FBA]",
    ← noted (.nonterminal 'A') 0.33 "[&FLA]/////[&LA]",
    ← noted .forward 1 "S/////F",
    ← noted (.nonterminal 'S') 1 "FL",
    ← noted (.nonterminal 'L') 1 "[^^\x7b-f+f+f-|-f+f+f\x7d]",
    ← noted (.nonterminal 'B') 1 "[-F*]"]

def bush (p : BushParams K) : Except (PresetError K) (Preset K) :=
  (ruleSet .stochastic bushRules).map fun rules =>
    ⟨⟨[bud 'A'], rules, p.depth⟩, .ofPen p.stepSize p.stepAngle p.radius⟩

end Foliage.Preset
