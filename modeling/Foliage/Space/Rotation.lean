import Foliage.Space.Vec

/-!
# Rotations

Rotation of a vector about a unit axis (`Vec.rotate`, `Vec.rotateBy`), and the shortest rotation that carries one
direction onto another, as a unit quaternion (`Quaternion.arc`).
-/

namespace Foliage

namespace Vec

variable {K : Type} [Scalar K]

/-- `v` rotated about the unit vector `axis` by the angle with the given sine and cosine. -/
def rotateBy (v axis : Vec K) (sin cos : K) : Vec K :=
  v * cos + axis.cross v * sin + axis * axis.dot v * (1 - cos)

/-- `v` rotated about the unit vector `axis` by `angle` radians. -/
def rotate (v axis : Vec K) (angle : K) : Vec K :=
  v.rotateBy axis (Scalar.sin angle) (Scalar.cos angle)

/-- A unit vector orthogonal to the unit vector `v`. -/
def orthogonal (v : Vec K) : Vec K :=
  let s := Scalar.sign v.z
  let a := -1 / (s + v.z)
  let b := v.x * v.y * a
  ⟨b, s + v.y * v.y * a, -v.y⟩

end Vec

/-- A quaternion: a vector part and a scalar part. A unit quaternion is a rotation. -/
structure Quaternion (K : Type) where
  vector : Vec K
  scalar : K

namespace Quaternion

variable {K : Type} [Scalar K]

/-- The rotation that changes nothing. -/
def identity : Quaternion K := ⟨0, 1⟩

/-- The rotation about a unit vector by `angle` radians. -/
def ofAxisAngle (axis : Vec K) (angle : K) : Quaternion K :=
  ⟨axis * Scalar.sin (angle * 0.5), Scalar.cos (angle * 0.5)⟩

/-- A quaternion scaled to length one. -/
def normalize (q : Quaternion K) : Quaternion K :=
  let shrink := 1 / Scalar.sqrt (q.vector.dot q.vector + q.scalar * q.scalar)
  ⟨q.vector * shrink, q.scalar * shrink⟩

/-- A vector carried along by a rotation. -/
def apply (q : Quaternion K) (v : Vec K) : Vec K :=
  let b := q.vector
  let w := q.scalar
  v * (w * w - b.dot b) + b * (v.dot b * 2.0) + b.cross v * (w * 2.0)

/-- Below this distance from one, the cosine of two directions counts as one. -/
def alignment : K := 1 - Scalar.powTwo (-51)

/-- The shortest rotation that carries the unit vector `a` onto the unit vector `b`: none for directions that agree,
a half turn about an orthogonal vector for directions that are opposite. -/
def arc (a b : Vec K) : Quaternion K :=
  let d := a.dot b
  if alignment < d then identity
  else if d < -alignment then ofAxisAngle a.orthogonal Scalar.pi
  else normalize ⟨a.cross b, 1 + d⟩

end Quaternion

end Foliage
