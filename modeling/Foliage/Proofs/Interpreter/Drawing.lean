import Foliage.Proofs.Mesh
import Foliage.Proofs.Turtle.Radius

/-!
# Meshes of drawings

A drawing is the mesh of all faces that a run draws, in their order (`depicts`). Tubes have four corners, polygons are
drawn only with three or more, and ornaments are made of triangles, so that no face has fewer than three; this holds of
what a turtle does (`polygons_turtle`) as of what a population does (`polygons_population`), and hence of all runs
(`polygons_of_executes`).
-/

namespace Foliage

variable {τ K : Type} [Scalar K]

/-- All that turtles of a kind draw has three corners or more, if they stamp nothing but ornaments. -/
structure TurtleLike.DrawsPolygons (τ : Type) {K : Type} [Scalar K] [TurtleLike τ K] : Prop where
  act : ∀ (t : τ) (action : Action K), ∀ f ∈ (act t action).2.faces.toList, 3 ≤ f.length
  stamp : ∀ (t : τ) (o : Ornament K) (faces : List (Face K)), stamp? t o.stamp = some faces →
    ∀ f ∈ faces, 3 ≤ f.length
  steer : ∀ g : τ → τ × Trace K, steer? = some g → ∀ t, ∀ f ∈ (g t).2.faces.toList, 3 ≤ f.length

/-- Whatever the interpreter stamps is an ornament. -/
def Interpreter.StampsOrnaments (it : Interpreter K) : Prop :=
  ∀ s, it.ornament = some s → ∃ o : Ornament K, s = o.stamp

/-! ## Turtles and populations -/

/-- The faces of an ornament are triangles. -/
theorem length_of_project {o : Ornament K} {position heading : Vec K} {faces : List (Face K)}
    (h : o.project? position heading = some faces) : ∀ f ∈ faces, f.length = 3 := by
  intro f hf
  obtain ⟨triangle, -, hcorners⟩ := exists_of_forall₂ (mapM_eq_some_iff.mp h) hf
  exact (mapM_eq_some_iff.mp hcorners).length_eq.symm

theorem polygons_act (t : Turtle K) (action : Action K) : ∀ f ∈ (t.act action).2.faces.toList, 3 ≤ f.length := by
  intro f hf
  cases action with
  | forward amount =>
    rw [length_of_mem_tube (t := t) hf]
    decide
  | endPoly =>
    have hf : f ∈ t.closeOutline.2.faces.toList := hf
    rw [Turtle.closeOutline] at hf
    split at hf
    · rename_i hthree
      rw [List.mem_singleton.mp hf]
      exact hthree
    · cases hf
  | skip | turn | startPoly | horiz | setRadius => cases hf

theorem polygons_turtle : TurtleLike.DrawsPolygons (Turtle K) where
  act := polygons_act
  stamp t o faces h f hf := (length_of_project h f hf).ge
  steer g hg := by cases hg

theorem polygons_population : TurtleLike.DrawsPolygons (Population K) where
  act p action f hf := by
    have hf : f ∈ (p.act action).2.faces.toList := hf
    rw [faces_act] at hf
    obtain ⟨m, -, hf⟩ := List.mem_flatMap.mp hf
    exact polygons_act m.turtle action f hf
  stamp p o faces h f hf := by
    obtain ⟨stamps, hstamps, rfl⟩ := Option.map_eq_some_iff.mp h
    obtain ⟨stamp, hstamp, hf⟩ := List.mem_flatten.mp hf
    obtain ⟨member, -, hmember⟩ := exists_of_forall₂ (mapM_eq_some_iff.mp hstamps) hstamp
    exact (length_of_project hmember f hf).ge
  steer g hg p f hf := by
    obtain rfl := Option.some.inj hg
    rw [faces_steer] at hf
    cases hf

/-! ## Runs -/

section Runs

variable [TurtleLike τ K] {it : Interpreter K}

open Interpreter

theorem polygons_of_perform (hτ : TurtleLike.DrawsPolygons τ) (ho : it.StampsOrnaments) {x : Symbol K}
    {m m' : Machine τ} {fs : List (Face K)} (h : it.perform x m = .ok (m', fs)) : ∀ f ∈ fs, 3 ≤ f.length := by
  cases perform_ok_iff.mp h with
  | act action => exact hτ.act m.turtle action
  | stamp s fs _ hs hstamp =>
    obtain ⟨o, rfl⟩ := ho s hs
    exact hτ.stamp m.turtle o fs hstamp
  | steer g _ hg => exact hτ.steer g hg m.turtle
  | push | pop | idle | pass => exact nofun

theorem polygons_of_executes (hτ : TurtleLike.DrawsPolygons τ) (ho : it.StampsOrnaments) {xs : List (Symbol K)}
    {m m' : Machine τ} {fs : List (Face K)} (h : it.Executes xs m fs m') : ∀ f ∈ fs, 3 ≤ f.length := by
  induction h with
  | nil m => exact nofun
  | cons hx _ ih => exact List.forall_mem_append.mpr ⟨polygons_of_perform hτ ho hx, ih⟩

/-- The drawing of a program, if there is one, is a mesh of as many faces as were counted. As long as its vertices can
be numbered by words it has the faces of the run in their order, with three corners or more. -/
def Interpreter.Depicts (it : Interpreter K) (xs : List (Symbol K)) (turtle : τ) : Prop :=
  ∀ drawing, (it.draw xs turtle).1 = .ok drawing →
    drawing.mesh.faceCount = drawing.report.faces ∧
    (drawing.mesh.vertexCount < 2 ^ 32 → ∀ k,
      drawing.mesh.face? k = (it.run xs ⟨turtle, []⟩).trace.faces[k]? ∧
      ∀ face, drawing.mesh.face? k = some face → 3 ≤ face.length)

theorem depicts (hτ : TurtleLike.DrawsPolygons τ) (ho : it.StampsOrnaments) (xs : List (Symbol K)) (turtle : τ) :
    it.Depicts xs turtle := by
  intro drawing hdrawing
  rcases executes_or_stops it xs ⟨turtle, []⟩ with ⟨fs, m', h⟩ | ⟨pre, x, post, fs, m', fault, rfl, h, hx⟩
  · obtain ⟨-, hfaces, -⟩ := run_of_executes h
    rw [draw_of_executes h] at hdrawing
    obtain rfl := Except.ok.inj hdrawing
    refine ⟨Mesh.size_faces_ofFaces fs, fun hcount k => ?_⟩
    rw [Mesh.vertexCount_ofFaces] at hcount
    simp only [Mesh.face?_ofFaces hcount, ← Array.getElem?_toList, hfaces, true_and]
    exact fun face hface => polygons_of_executes hτ ho h face (List.mem_of_getElem? hface)
  · simp only [draw, (run_of_stops h hx post).2.2] at hdrawing
    cases hdrawing

end Runs

/-- **A mesh gives back its faces.** Add any faces to an empty mesh and clear it, in any order. As long as its vertices
can be numbered by words, the corners of all its faces, one face behind the other, are numbered through from zero to the
last vertex, and looking up a number gives the face that was added under it since the mesh was last cleared, or none from
the number of these faces on. So the drawing of any program, by a turtle or by a population, with no ornament or with
any, is a mesh of as many faces as were counted, which gives back the faces of the run one by one, each of them with
three corners or more. -/
theorem mesh_faces :
    (∀ edits : List (Mesh.Edit K),
      let mesh := Mesh.empty.editAll edits
      let faces := Mesh.facesOf edits
      mesh.vertexCount < 2 ^ 32 →
        mesh.faces.toList.flatten.map UInt32.toNat = List.range mesh.vertexCount ∧
        mesh.faceCount = faces.length ∧ ∀ i, mesh.face? i = faces[i]?) ∧
    ∀ it : Interpreter K, it.StampsOrnaments → ∀ xs : List (Symbol K),
      (∀ t : Turtle K, it.Depicts xs t) ∧ ∀ p : Population K, it.Depicts xs p := by
  refine ⟨fun edits => ?_, fun it ho xs => ⟨depicts polygons_turtle ho xs, depicts polygons_population ho xs⟩⟩
  intro mesh faces hcount
  have hmesh : mesh = Mesh.ofFaces faces.toArray := Mesh.editAll_eq_ofFaces edits
  rw [hmesh, Mesh.vertexCount_ofFaces] at hcount
  rw [hmesh, Mesh.vertexCount_ofFaces]
  exact ⟨Mesh.corners_ofFaces hcount, Mesh.size_faces_ofFaces faces, Mesh.face?_ofFaces hcount⟩

end Foliage
