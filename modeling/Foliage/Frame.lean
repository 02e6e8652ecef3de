import Foliage.Space.Rotation
import Foliage.Symbol

/-!
# Frames

The orientation of a turtle: where it heads, what is up for it and what is on its left. The three are meant to be unit
vectors at right angles with `up = direction × left`; rotations carry two of them about the third, and
`orthonormalize` and `level` restore what rounding has lost.
-/

namespace Foliage

/-- Heading, up and left. -/
structure Frame (K : Type) where
  direction : Vec K
  up : Vec K
  left : Vec K
deriving Repr, BEq, DecidableEq

namespace Frame

variable {K : Type} [Scalar K]

/-- Heading along the third axis, with the second one up. -/
def upright : Frame K := ⟨.unitZ, .unitY, .unitX⟩

/-- The frame turned about its own up vector. -/
def yaw (f : Frame K) (angle : K) : Frame K :=
  { f with direction := f.direction.rotate f.up angle, left := f.left.rotate f.up angle }

/-- The frame turned about its own left vector. -/
def pitch (f : Frame K) (angle : K) : Frame K :=
  { f with direction := f.direction.rotate f.left angle, up := f.up.rotate f.left angle }

/-- The frame turned about its own direction. -/
def roll (f : Frame K) (angle : K) : Frame K :=
  { f with up := f.up.rotate f.direction angle, left := f.left.rotate f.direction angle }

/-- The frame after a turn. To the right, up and clockwise are the positive senses. -/
def turn (f : Frame K) (t : Turn) (angle : K) : Frame K :=
  match t with
  | .yawLeft => f.yaw (-angle)
  | .yawRight => f.yaw angle
  | .pitchUp => f.pitch angle
  | .pitchDown => f.pitch (-angle)
  | .rollLeft => f.roll (-angle)
  | .rollRight => f.roll angle

/-- Unit vectors at right angles, keeping the direction and the plane of the up vector. -/
def orthonormalize (f : Frame K) : Frame K :=
  let direction := f.direction.normalizeOrZero
  let up := (f.up - direction * direction.dot f.up).normalizeOrZero
  ⟨direction, up, up.cross direction⟩

/-- Unit vectors at right angles, keeping the direction and the plane of the left vector. -/
def level (f : Frame K) : Frame K :=
  let direction := f.direction.normalizeOrZero
  let up := (direction.cross f.left).normalizeOrZero
  ⟨direction, up, (up.cross direction).normalizeOrZero⟩

/-- The three vectors are of length one and at right angles, each within `tolerance`. -/
def isOrthonormal (f : Frame K) (tolerance : K) : Bool :=
  let unit := fun v : Vec K => decide (Scalar.abs (v.length - 1) ≤ tolerance)
  let right := fun v w : Vec K => decide (Scalar.abs (v.dot w) ≤ tolerance)
  unit f.direction && unit f.up && unit f.left
    && right f.direction f.up && right f.direction f.left && right f.up f.left

/-- The frame that heads in the unit direction `target`. The side vectors are carried along by the shortest rotation
from the old heading; straight behind, that is a half turn about the up vector. -/
def headToward (f : Frame K) (target : Vec K) : Frame K :=
  let old := f.direction.normalizeOrZero
  let axis := old.cross target
  let cos := Scalar.clamp (old.dot target) (-1) 1
  match axis.normalize? with
  | some unitAxis =>
    let carry := fun v : Vec K => (v.rotateBy unitAxis axis.length cos).normalizeOrZero
    ⟨target, carry f.up, carry f.left⟩
  | none => ⟨target, f.up, if cos < 0 then -f.left else f.left⟩

end Frame

end Foliage
