import Foliage.Preset.Frond

/-!
# Guided plant

A plant whose trunk grows along a skeleton. In every generation a trunk segment is doubled with a `?` between, at which
the population steers toward its nodes and forks at them; the crown is that of a palm.
-/

namespace Foliage.Preset

structure GuidedParams (K : Type) where
  depth : Nat
  stepSize : K
  /-- In degrees. -/
  stepAngle : K
  radius : K
  trunkLength : K
  leafCount : Nat
  /-- The least distance of leaf angles, in radians. -/
  leafSpacing : K
  guidance : Guidance K
  skeleton : SkeletonPlan K

/-- A plant of six generations with twelve leaves, on a stem that forks to both sides. -/
def GuidedParams.standard {K : Type} [Scalar K] : GuidedParams K where
  depth := 6
  stepSize := 0.5
  stepAngle := 22.5
  radius := 0.1
  trunkLength := 6.0
  leafCount := 12
  leafSpacing := 0.05
  guidance := .standard
  skeleton := .node 0 [.node ⟨0, 0, 5.0⟩ [.leaf ⟨-5.0, 0, 0⟩, .leaf ⟨5.0, 0, 0⟩]]

variable {σ K : Type} [RandomSource σ] [Scalar K]

/-- A trunk segment that is doubled with a look at the skeleton between the halves. -/
def guidedTrunk : Rule K := .constant .trunk 1 [.bare .trunk, .bare .considerData, .bare .trunk]

def guided [Numeral K] (p : GuidedParams K) (s : σ) : Built (GuidedPreset K) σ K :=
  let leaves := LeafAngles.generate p.leafSpacing p.leafCount s
  let rules := ruleSet .stochastic ((frondRules leaves.angles.toList).map (· ++ [guidedTrunk]))
  ⟨rules.map fun rules =>
      ⟨⟨trunkAndCrown p.trunkLength p.leafCount, rules, p.depth⟩, .ofPen p.stepSize p.stepAngle p.radius,
        p.guidance, .ofPlan p.skeleton⟩,
    leaves.source, leaves.events⟩

end Foliage.Preset
