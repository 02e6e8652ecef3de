import Foliage.Ornament

/-!
# Meshes

A soup of polygons: every face brings vertices of its own, and holds their indices as words of 32 bits.
-/

namespace Foliage

/-- Vertices, and for every face the indices of its corners. -/
structure Mesh (K : Type) where
  vertices : Array (Vec K)
  faces : Array (List UInt32)
deriving Repr, BEq

/-- The least box around some points, with sides along the axes. -/
structure Bounds (K : Type) where
  lo : Vec K
  hi : Vec K
deriving Repr, BEq

namespace Mesh

variable {K : Type}

/-- No faces. -/
def empty : Mesh K := ⟨#[], #[]⟩

/-- The mesh with everything taken out of it. -/
def clear (_ : Mesh K) : Mesh K := empty

/-- The number of vertices. -/
def vertexCount (m : Mesh K) : Nat := m.vertices.size

/-- The number of faces. -/
def faceCount (m : Mesh K) : Nat := m.faces.size

/-- There are no faces. -/
def isEmpty (m : Mesh K) : Bool := m.faces.isEmpty

/-- The indices from `start` up to but not including `stop`. -/
def indices (start stop : UInt32) : List UInt32 :=
  (List.range (stop.toNat - start.toNat)).map fun k => UInt32.ofNat (start.toNat + k)

/-- The mesh with one more face. -/
def addFace : Mesh K → Face K → Mesh K
  | ⟨vertices, faces⟩, face =>
    let start := UInt32.ofNat vertices.size
    ⟨vertices ++ face, faces.push (indices start (start + UInt32.ofNat face.length))⟩

/-- The mesh of some faces. -/
def ofFaces (faces : Array (Face K)) : Mesh K := faces.foldl addFace empty

/-- The points of a face. -/
def face? (m : Mesh K) (index : Nat) : Option (Face K) :=
  m.faces[index]?.bind fun corners => corners.mapM fun k => m.vertices[k.toNat]?

/-- The box around the points seen so far, widened to another one. -/
def Bounds.widen [Scalar K] (b : Bounds K) (v : Vec K) : Bounds K := ⟨b.lo.lesser v, b.hi.greater v⟩

/-- The box around all vertices, if there are any. -/
def bounds? [Scalar K] (m : Mesh K) : Option (Bounds K) :=
  m.vertices[0]?.map fun first => m.vertices.foldl Bounds.widen ⟨first, first⟩

end Mesh

end Foliage
