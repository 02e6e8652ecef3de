import Foliage.Scalar

/-!
# Vectors of space

Points and directions of three-dimensional space. A direction is normalized only when the reciprocal of its length
is a positive finite scalar (`normalize?`), so a zero, infinite or undefined vector has no direction.
-/

namespace Foliage

/-- A point or a direction of space. -/
structure Vec (K : Type) where
  x : K
  y : K
  z : K
deriving Repr, BEq, DecidableEq

namespace Vec

variable {K : Type} [Scalar K]

instance : Zero (Vec K) := ⟨⟨0, 0, 0⟩⟩

instance : Add (Vec K) := ⟨fun a b => ⟨a.x + b.x, a.y + b.y, a.z + b.z⟩⟩

instance : Sub (Vec K) := ⟨fun a b => ⟨a.x - b.x, a.y - b.y, a.z - b.z⟩⟩

instance : Neg (Vec K) := ⟨fun a => ⟨-a.x, -a.y, -a.z⟩⟩

/-- A vector stretched by a scalar. -/
instance : HMul (Vec K) K (Vec K) := ⟨fun a s => ⟨a.x * s, a.y * s, a.z * s⟩⟩

/-- The first axis. -/
def unitX : Vec K := ⟨1, 0, 0⟩

/-- The second axis. -/
def unitY : Vec K := ⟨0, 1, 0⟩

/-- The third axis, along which plants grow upward. -/
def unitZ : Vec K := ⟨0, 0, 1⟩

/-- The inner product. -/
def dot (a b : Vec K) : K := a.x * b.x + a.y * b.y + a.z * b.z

/-- The outer product. -/
def cross (a b : Vec K) : Vec K :=
  ⟨a.y * b.z - b.y * a.z, a.z * b.x - b.z * a.x, a.x * b.y - b.x * a.y⟩

/-- The Euclidean length. -/
def length (a : Vec K) : K := Scalar.sqrt (a.dot a)

/-- The distance of two points. -/
def dist (a b : Vec K) : K := (a - b).length

/-- The vector of length one in the direction of `a`, if `a` has a direction. -/
def normalize? (a : Vec K) : Option (Vec K) :=
  let shrink := 1 / a.length
  if Scalar.isFinite shrink && decide (0 < shrink) then some (a * shrink) else none

/-- The vector of length one in the direction of `a`, or zero if `a` has no direction. -/
def normalizeOrZero (a : Vec K) : Vec K := a.normalize?.getD 0

/-- The point that divides the way from `a` to `b` in the ratio `t : 1 - t`. -/
def lerp (a b : Vec K) (t : K) : Vec K := a * (1 - t) + b * t

/-- The lesser coordinates of two points. -/
def lesser (a b : Vec K) : Vec K :=
  ⟨Scalar.lesser a.x b.x, Scalar.lesser a.y b.y, Scalar.lesser a.z b.z⟩

/-- The greater coordinates of two points. -/
def greater (a b : Vec K) : Vec K :=
  ⟨Scalar.greater a.x b.x, Scalar.greater a.y b.y, Scalar.greater a.z b.z⟩

end Vec

end Foliage
