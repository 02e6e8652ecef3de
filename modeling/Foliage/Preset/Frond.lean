import Foliage.LeafAngles
import Foliage.Preset

/-!
# Fronds

The crown of a palm: at the end of the trunk the turtle bends over and puts out one frond for every leaf angle. A frond
`I` begins in one of three ways, and grows on at its tip `L` by a bent segment with a pair of leaflets.
-/

namespace Foliage.Preset

variable {K : Type} [Scalar K]

/-- A right angle downward, then a frond at every leaf angle. -/
def crown (angles : List K) : List (Symbol K) :=
  .ofAmount (.turn .pitchDown) Scalar.halfPi
    :: angles.flatMap fun angle => .ofAmount (.turn .yawRight) angle :: branch [bud 'I']

def frondRules [Numeral K] (angles : List K) : Except Notation.ParseError (List (Rule K)) := do
  return [
    .constant (.nonterminal 'C') 1 (crown angles),
    ← noted (.nonterminal 'I') 0.33 "&F[+++F][---F]L",
    ← noted (.nonterminal 'I') 0.33 "^F[+++F][---F]L",
    ← noted (.nonterminal 'I') 0.34 "^^^L",
    ← noted (.nonterminal 'L') 1 "&F[+++F][---F]L"]

/-- A trunk of the given length below a crown with as many leaves as given. -/
def trunkAndCrown (trunkLength : K) (leafCount : Nat) : List (Symbol K) :=
  [.ofAmount .trunk trunkLength, .ofAmount (.nonterminal 'C') (Scalar.ofNat leafCount)]

end Foliage.Preset
