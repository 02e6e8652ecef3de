import Foliage.Event
import Foliage.Random

/-!
# Leaf angles

The angles of the leaves of a whorl, drawn one after the other. A candidate that is close to an earlier angle is drawn
again, until the attempts for this angle are used up; then the last candidate is accepted and reported.
-/

namespace Foliage

/-- Angles in the order in which they were drawn, the source after them, and the events on the way. -/
structure LeafAngles (σ K : Type) where
  angles : Array K
  source : σ
  events : Array (Event K)

namespace LeafAngles

variable {σ K : Type} [RandomSource σ] [Scalar K]

/-- The candidates that an angle may take. -/
def maxAttempts : Nat := 1000

/-- An angle is close to one of those taken. -/
def crowded (tolerance : K) (taken : Array K) (angle : K) : Bool :=
  taken.any fun a => decide (Scalar.abs (a - angle) ≤ tolerance)

/-- The next angle, whether it is crowded, and the source after it, with as many more attempts as given if the first
candidate is crowded. -/
def pick (tolerance : K) (taken : Array K) : Nat → σ → K × Bool × σ
  | 0, s =>
    let (angle, s) := Random.below Scalar.tau s
    (angle, crowded tolerance taken angle, s)
  | more + 1, s =>
    let (angle, s) := Random.below Scalar.tau s
    if crowded tolerance taken angle then pick tolerance taken more s else (angle, false, s)

/-- The angles with one more. -/
def extend (tolerance : K) (l : LeafAngles σ K) : LeafAngles σ K :=
  let (angle, isCrowded, source) := pick tolerance l.angles (maxAttempts - 1) l.source
  ⟨l.angles.push angle, source, if isCrowded then l.events.push (.crowdedAngle maxAttempts angle) else l.events⟩

/-- As many angles as given, each further than `tolerance` from those before it where possible. -/
def generate (tolerance : K) : (count : Nat) → σ → LeafAngles σ K
  | 0, s => ⟨#[], s, #[]⟩
  | count + 1, s => (generate tolerance count s).extend tolerance

end LeafAngles

end Foliage
