import Foliage.Preset

/-!
# Tree

A tree with one main axis, lengths that shrink from segment to segment, and fixed branching angles. With `l` for the
length of a segment its rules are

* `A(l)` to `F(l)[&(a)B(l*r)]/(d)A(l*q)`
* `B(l)` to `F(l)[-(b)$C(l*r)]C(l*q)`
* `C(l)` to `F(l)[+(b)$B(l*r)]B(l*q)`

where `q` and `r` are the ratios along the axis and into branches, `a` and `b` the angles off the main axis and off the
branches, and `d` the roll between branches.
-/

namespace Foliage.Preset

/-- The parameters of a tree. Angles are in degrees. -/
structure TreeParams (K : Type) where
  depth : Nat
  stepSize : K
  stepAngle : K
  radius : K
  /-- The length of the first segment. -/
  initialLength : K
  /-- The ratio of lengths along an axis. -/
  trunkRatio : K
  /-- The ratio of lengths into a branch. -/
  branchRatio : K
  /-- The angle of branches off the main axis. -/
  trunkBranchAngle : K
  /-- The angle of branches off branches. -/
  lateralBranchAngle : K
  /-- The roll between branches. -/
  divergence : K

/-- A tree of ten generations. -/
def TreeParams.standard {K : Type} [Scalar K] : TreeParams K :=
  ⟨10, 1.0, 22.5, 0.1, 1.0, 0.9, 0.8, 45.0, 45.0, 137.5⟩

variable {K : Type} [Scalar K]

/-- The main axis: a segment, a branch below it, and the axis rolled on. -/
def TreeParams.axis (p : TreeParams K) : Production K := fun x =>
  let l := x.amountOr p.initialLength
  .ofAmount .forward l
    :: branch [.ofAmount (.turn .pitchDown) (Scalar.toRadians p.trunkBranchAngle),
      .ofAmount (.nonterminal 'B') (l * p.branchRatio)]
    ++ [.ofAmount (.turn .rollRight) (Scalar.toRadians p.divergence),
      .ofAmount (.nonterminal 'A') (l * p.trunkRatio)]

/-- A lateral axis: a segment, a branch that turns aside and is leveled, and the axis carried on under a new name. -/
def TreeParams.lateral (p : TreeParams K) (aside : Turn) (next : Char) : Production K := fun x =>
  let l := x.amountOr p.initialLength
  .ofAmount .forward l
    :: branch [.ofAmount (.turn aside) (Scalar.toRadians p.lateralBranchAngle), .bare .horiz,
      .ofAmount (.nonterminal next) (l * p.branchRatio)]
    ++ [.ofAmount (.nonterminal next) (l * p.trunkRatio)]

def TreeParams.rules (p : TreeParams K) : List (Rule K) :=
  [⟨.nonterminal 'A', 1, p.axis⟩, ⟨.nonterminal 'B', 1, p.lateral .yawRight 'C'⟩,
    ⟨.nonterminal 'C', 1, p.lateral .yawLeft 'B'⟩]

def tree (p : TreeParams K) : Except (PresetError K) (Preset K) :=
  (ruleSet .deterministic (.ok p.rules)).map fun rules =>
    ⟨⟨[.ofAmount (.nonterminal 'A') p.initialLength], rules, p.depth⟩, .ofPen p.stepSize p.stepAngle p.radius⟩

end Foliage.Preset
