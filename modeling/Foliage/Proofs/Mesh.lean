import Foliage.Mesh
import Foliage.Proofs.PartialMap
import Mathlib.Algebra.Ring.Nat
import Mathlib.Data.List.DropRight
import Mathlib.Data.List.Induction

/-!
# Faces of a mesh

A mesh has the vertices of its faces one behind the other (`vertices_ofFaces`). As long as their number fits into a
word of 32 bits, the corners of its faces are numbered through (`corners_ofFaces`), and every face is read back as it
was added (`face?_ofFaces`): a further face leaves those before it alone (`face?_addFace_of_some`) and is itself found
behind them (`face?_addFace_self`).

A mesh that is edited, by adding faces and by clearing it, is the mesh of the faces that were added since it was last
cleared (`editAll_eq_ofFaces`).
-/

namespace Foliage.Mesh

variable {K : Type}

theorem vertices_addFace (m : Mesh K) (face : Face K) :
    (m.addFace face).vertices.toList = m.vertices.toList ++ face :=
  Array.toList_appendList

@[simp] theorem size_faces_addFace (m : Mesh K) (face : Face K) : (m.addFace face).faces.size = m.faces.size + 1 :=
  Array.size_push ..

/-- The indices of a new face, as long as they fit into words. -/
theorem indices_eq {start length : Nat} (h : start + length < 2 ^ 32) :
    (indices (.ofNat start) (.ofNat start + .ofNat length)).map UInt32.toNat =
      (List.range length).map fun k => start + k := by
  have hword : ∀ {n : Nat}, n < 2 ^ 32 → (UInt32.ofNat n).toNat = n := UInt32.toNat_ofNat_of_lt'
  rw [indices, ← UInt32.ofNat_add, hword h, hword (by omega), Nat.add_sub_cancel_left, List.map_map]
  refine List.map_congr_left fun k hk => ?_
  have hlt := List.mem_range.mp hk
  exact hword (by omega)

/-- A face is looked up by the numbers of its corners. -/
theorem face?_eq (m : Mesh K) (i : Nat) :
    m.face? i = m.faces[i]?.bind fun corners =>
      (corners.map UInt32.toNat).mapM fun k => m.vertices.toList[k]? := by
  simp only [face?, List.mapM_map, Array.getElem?_toList]
  rfl

theorem face?_addFace_of_some {m : Mesh K} {i : Nat} {face : Face K} (h : m.face? i = some face) (next : Face K) :
    (m.addFace next).face? i = some face := by
  rw [face?_eq] at h ⊢
  obtain ⟨corners, hcorners, hface⟩ := Option.bind_eq_some_iff.mp h
  have hlt : i < m.faces.size := (Array.getElem?_eq_some_iff.mp hcorners).1
  have hkept : (m.addFace next).faces[i]? = some corners := by
    rw [addFace, Array.getElem?_push_lt hlt, ← hcorners]
    exact (Array.getElem?_eq_getElem hlt).symm
  rw [hkept, Option.bind_some, mapM_eq_some_iff, vertices_addFace]
  refine (mapM_eq_some_iff.mp hface).imp fun k v hv => ?_
  rw [List.getElem?_append_left (List.getElem?_eq_some_iff.mp hv).1, hv]

theorem face?_addFace_self {m : Mesh K} {face : Face K} (h : m.vertices.size + face.length < 2 ^ 32) :
    (m.addFace face).face? m.faces.size = some face := by
  have hcorners : (m.addFace face).faces[m.faces.size]? =
      some (indices (.ofNat m.vertices.size) (.ofNat m.vertices.size + .ofNat face.length)) :=
    Array.getElem?_push_size
  rw [face?_eq, hcorners, Option.bind_some, indices_eq h, mapM_eq_some_iff, vertices_addFace, List.forall₂_map_left_iff,
    List.forall₂_iff_get]
  refine ⟨List.length_range, fun k hk hlt => ?_⟩
  rw [List.get_eq_getElem, List.getElem_range, ← Array.length_toList, List.getElem?_append_right (Nat.le_add_right ..),
    Nat.add_sub_cancel_left]
  exact List.getElem?_eq_getElem hlt

/-! ## The mesh of some faces -/

theorem ofFaces_push (faces : Array (Face K)) (face : Face K) :
    ofFaces (faces.push face) = (ofFaces faces).addFace face := by
  rw [ofFaces, Array.foldl_push]
  rfl

theorem vertices_ofFaces (faces : List (Face K)) : (ofFaces faces.toArray).vertices.toList = faces.flatten := by
  induction faces using List.reverseRecOn with
  | nil => rfl
  | append_singleton faces face ih =>
    rw [← List.push_toArray, ofFaces_push, vertices_addFace, ih, List.flatten_append, List.flatten_singleton]

theorem vertexCount_ofFaces (faces : List (Face K)) :
    (ofFaces faces.toArray).vertexCount = faces.flatten.length := by
  rw [vertexCount, ← Array.length_toList, vertices_ofFaces]

theorem size_faces_ofFaces (faces : List (Face K)) : (ofFaces faces.toArray).faces.size = faces.length := by
  induction faces using List.reverseRecOn with
  | nil => rfl
  | append_singleton faces face ih =>
    rw [← List.push_toArray, ofFaces_push, size_faces_addFace, ih, List.length_append, List.length_singleton]

theorem face?_of_le {m : Mesh K} {i : Nat} (h : m.faces.size ≤ i) : m.face? i = none := by
  rw [face?, Array.getElem?_eq_none h]
  rfl

/-- **Faces are read back** in the order in which they were added, as long as the number of vertices fits into a word. -/
theorem face?_ofFaces {faces : List (Face K)} (h : faces.flatten.length < 2 ^ 32) (i : Nat) :
    (ofFaces faces.toArray).face? i = faces[i]? := by
  induction faces using List.reverseRecOn with
  | nil => rfl
  | append_singleton faces face ih =>
    rw [List.flatten_append, List.flatten_singleton, List.length_append] at h
    rw [← List.push_toArray, ofFaces_push]
    rcases Nat.lt_trichotomy i faces.length with hlt | rfl | hgt
    · have hkept := ih (by omega)
      rw [List.getElem?_eq_getElem hlt] at hkept
      rw [face?_addFace_of_some hkept, List.getElem?_append_left hlt, List.getElem?_eq_getElem hlt]
    · rw [← vertexCount_ofFaces] at h
      rw [← size_faces_ofFaces, face?_addFace_self h, size_faces_ofFaces, List.getElem?_concat_length]
    · rw [face?_of_le (by rw [size_faces_addFace, size_faces_ofFaces]; omega), List.getElem?_eq_none]
      rw [List.length_append, List.length_singleton]
      omega

/-- **Corners are numbered through**, as long as their number fits into a word. -/
theorem corners_ofFaces {faces : List (Face K)} (h : faces.flatten.length < 2 ^ 32) :
    (ofFaces faces.toArray).faces.toList.flatten.map UInt32.toNat = List.range faces.flatten.length := by
  induction faces using List.reverseRecOn with
  | nil => rfl
  | append_singleton faces face ih =>
    rw [List.flatten_append, List.flatten_singleton, List.length_append] at h ⊢
    have hnew : (ofFaces (faces ++ [face]).toArray).faces.toList =
        (ofFaces faces.toArray).faces.toList ++
          [indices (.ofNat faces.flatten.length) (.ofNat faces.flatten.length + .ofNat face.length)] := by
      rw [← vertexCount_ofFaces, ← List.push_toArray, ofFaces_push]
      exact Array.toList_push
    rw [hnew, List.flatten_append, List.flatten_singleton, List.map_append, ih (by omega), indices_eq h, List.range_add]

/-! ## Edits -/

/-- What can be done to a mesh. -/
inductive Edit (K : Type) where
  | add (face : Face K)
  | clear

/-- The face that an edit adds, if it adds one. -/
def Edit.face? : Edit K → Option (Face K)
  | .add face => some face
  | .clear => none

/-- The mesh after an edit. -/
def edit (m : Mesh K) : Edit K → Mesh K
  | .add face => m.addFace face
  | .clear => m.clear

/-- The mesh after several edits. -/
def editAll (m : Mesh K) (edits : List (Edit K)) : Mesh K := edits.foldl edit m

/-- The faces that were added since the last time that the mesh was cleared. -/
def facesOf (edits : List (Edit K)) : List (Face K) :=
  (edits.rtakeWhile fun e => e.face?.isSome).filterMap Edit.face?

theorem facesOf_add (edits : List (Edit K)) (face : Face K) :
    facesOf (edits ++ [.add face]) = facesOf edits ++ [face] := by
  rw [facesOf, List.rtakeWhile_concat_pos _ _ _ (by rfl), List.filterMap_append]
  rfl

theorem facesOf_clear (edits : List (Edit K)) : facesOf (edits ++ [.clear]) = [] := by
  rw [facesOf, List.rtakeWhile_concat_neg _ _ _ (by exact Bool.false_ne_true)]
  rfl

/-- **Edits leave the mesh of the faces added last**, whatever was in it before it was cleared. -/
theorem editAll_eq_ofFaces (edits : List (Edit K)) : empty.editAll edits = ofFaces (facesOf edits).toArray := by
  induction edits using List.reverseRecOn with
  | nil => rfl
  | append_singleton edits e ih =>
    rw [editAll, List.foldl_append, List.foldl_cons, List.foldl_nil, ← editAll, ih]
    cases e with
    | add face =>
      rw [facesOf_add, ← List.push_toArray, ofFaces_push]
      rfl
    | clear =>
      rw [facesOf_clear]
      rfl

end Foliage.Mesh
