import Foliage.Preset.Frond

/-!
# Palm

A leaning palm. In every generation a trunk segment is halved, with a small turn between the halves; the turns of a
whole trunk add up to its inclination. The crown opens at random leaf angles.
-/

namespace Foliage.Preset

structure PalmParams (K : Type) where
  depth : Nat
  stepSize : K
  /-- In degrees. -/
  stepAngle : K
  radius : K
  trunkLength : K
  leafCount : Nat
  /-- The lean of the whole trunk, in degrees. -/
  trunkInclination : K
  /-- The least distance of leaf angles, in radians. -/
  leafSpacing : K

/-- A palm of six generations with twenty leaves. -/
def PalmParams.standard {K : Type} [Scalar K] : PalmParams K := ⟨6, 0.5, 14.5, 0.1, 5.0, 20, 30.0, 0.05⟩

variable {σ K : Type} [RandomSource σ] [Scalar K]

/-- The turn between two trunk segments: the inclination divided by the number of segments, which is two to the depth
as a signed word of 32 bits. -/
def PalmParams.lean (p : PalmParams K) : K :=
  Scalar.toRadians p.trunkInclination / Scalar.powTwo ((p.depth : Int).bmod (Nat.pow 2 32))

/-- A trunk segment in two halves. -/
def PalmParams.halve (p : PalmParams K) : Production K := fun x =>
  let half := 0.5 * x.amountOr p.trunkLength
  [.ofAmount .trunk half, .ofAmount (.turn .yawRight) p.lean, .ofAmount .trunk half]

def palm [Numeral K] (p : PalmParams K) (s : σ) : Built (Preset K) σ K :=
  let leaves := LeafAngles.generate p.leafSpacing p.leafCount s
  let rules := ruleSet .stochastic ((frondRules leaves.angles.toList).map (· ++ [⟨.trunk, 1, p.halve⟩]))
  ⟨rules.map fun rules =>
      ⟨⟨trunkAndCrown p.trunkLength p.leafCount, rules, p.depth⟩, .ofPen p.stepSize p.stepAngle p.radius⟩,
    leaves.source, leaves.events⟩

end Foliage.Preset
