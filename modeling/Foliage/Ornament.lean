import Foliage.Space.Rotation

/-!
# Ornaments

Whatever a turtle can stamp at its position is a `Stamp`. The stamps of this library are ornaments: small triangle
meshes, such as flowers and fruit. An ornament has a direction in which it points in its own space; its stamp turns
that direction to the heading of the turtle by the shortest rotation.
-/

namespace Foliage

/-- A polygon: its corners in order. -/
abbrev Face (K : Type) := List (Vec K)

/-- Something that can be placed at a position with a heading. -/
structure Stamp (K : Type) where
  /-- The faces at a position and with a heading, unless they cannot be given. -/
  faces? : (position heading : Vec K) → Option (List (Face K))

/-- Three vertices of an ornament by their indices, counted from zero. -/
structure Triangle where
  a : Nat
  b : Nat
  c : Nat
deriving Repr, DecidableEq

/-- The indices of a triangle in order. -/
def Triangle.corners (t : Triangle) : List Nat := [t.a, t.b, t.c]

/-- A mesh of triangles and the direction in which it points. -/
structure Ornament (K : Type) where
  vertices : Array (Vec K)
  triangles : List Triangle
  heading : Vec K
deriving Repr, BEq

namespace Ornament

variable {K : Type} [Scalar K]

/-- The ornament without vertices, which points nowhere. -/
def empty : Ornament K := ⟨#[], [], 0⟩

/-- The rotation that turns the ornament to a heading: none when either direction is undefined. -/
def aim (o : Ornament K) (heading : Vec K) : Quaternion K :=
  match o.heading.normalize?, heading.normalize? with
  | some own, some wanted => Quaternion.arc own wanted
  | _, _ => Quaternion.identity

/-- The faces of the ornament at a position and with a heading. There are none to give when a triangle names a vertex
that does not exist. -/
def project? (o : Ornament K) (position heading : Vec K) : Option (List (Face K)) :=
  let rotation := o.aim heading
  o.triangles.mapM fun t => t.corners.mapM fun k => o.vertices[k]?.map fun v => position + rotation.apply v

/-- An ornament as a stamp. -/
def stamp (o : Ornament K) : Stamp K := ⟨o.project?⟩

end Ornament

end Foliage
