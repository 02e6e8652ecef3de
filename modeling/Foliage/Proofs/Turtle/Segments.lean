import Foliage.Proofs.Interpreter.Lenient
import Foliage.Proofs.Mesh
import Foliage.Proofs.Turtle.Tubes

/-!
# Drawings made of tubes

A turtle whose program closes no outline and stamps no ornament draws tubes alone. Then nothing but the program decides
what its drawing counts: four quads for each symbol for a tube, the nonterminals as unresolved, and the other symbols as
executed (`draw_of_tally`). The drawing is a mesh of quads that can all be read back, as long as their vertices
can be numbered by words (`Mesh.IsQuads`).
-/

namespace Foliage

variable {K : Type}

/-- A turtle draws a tube or nothing at this tag, and passes over it exactly when it is a nonterminal. -/
def Tag.atMostTubes : Tag → Bool
  | .endPoly | .ornament | .considerData => false
  | _ => true

/-- The number of symbols of a program that draw a tube. -/
def tubes (xs : List (Symbol K)) : Nat := xs.countP fun x => x.tag.drawsTube

/-- The number of nonterminals of a program. -/
def buds (xs : List (Symbol K)) : Nat := xs.countP fun x => x.tag.isNonterminal

theorem tubes_append (xs ys : List (Symbol K)) : tubes (xs ++ ys) = tubes xs + tubes ys := List.countP_append

theorem buds_append (xs ys : List (Symbol K)) : buds (xs ++ ys) = buds xs + buds ys := List.countP_append

/-- A program at which a turtle draws tubes alone, with its nesting and the numbers of its nonterminals and tubes. -/
structure Tally (k b t : Nat) (xs : List (Symbol K)) : Prop where
  tags : ∀ x ∈ xs, x.tag.atMostTubes = true
  closes : Closes k 0 xs
  buds : buds xs = b
  tubes : tubes xs = t

theorem Tally.append {j k b c s t : Nat} {xs ys : List (Symbol K)} (hx : Tally j b s xs) (hy : Tally k c t ys)
    (hjk : j ≤ k) : Tally k (b + c) (s + t) (xs ++ ys) where
  tags := List.forall_mem_append.mpr ⟨hx.tags, hy.tags⟩
  closes := hx.closes.append hy.closes hjk
  buds := by rw [buds_append, hx.buds, hy.buds]
  tubes := by rw [tubes_append, hx.tubes, hy.tubes]

/-- A mesh of `n` quads, each of which is read back as four points as long as the number of vertices fits into a
word. -/
structure Mesh.IsQuads (n : Nat) (mesh : Mesh K) : Prop where
  faceCount : mesh.faceCount = n
  vertexCount : mesh.vertexCount = 4 * n
  face : mesh.vertexCount < 2 ^ 32 → ∀ i < n, ∃ face, mesh.face? i = some face ∧ face.length = 4

theorem length_flatten_quads {faces : List (Face K)} (h : ∀ f ∈ faces, f.length = 4) :
    faces.flatten.length = 4 * faces.length := by
  rw [List.length_flatten, List.map_congr_left h, List.map_const', List.sum_replicate_nat, Nat.mul_comm]

theorem isQuads_ofFaces {faces : List (Face K)} (h : ∀ f ∈ faces, f.length = 4) :
    (Mesh.ofFaces faces.toArray).IsQuads faces.length := by
  have hvertices := Mesh.vertexCount_ofFaces faces
  refine ⟨Mesh.size_faces_ofFaces faces, hvertices.trans (length_flatten_quads h), fun hsize i hi => ?_⟩
  rw [hvertices] at hsize
  rw [Mesh.face?_ofFaces hsize]
  exact ⟨faces[i], List.getElem?_eq_getElem hi, h _ (List.getElem_mem hi)⟩

variable [Scalar K] {it : Interpreter K}

open Interpreter

/-! ## One symbol -/

theorem isMeaningless_of_atMostTubes {tag : Tag} (h : tag.atMostTubes = true) :
    it.isMeaningless (Turtle K) tag = tag.isNonterminal := by
  cases tag
  case endPoly | ornament | considerData => cases h
  all_goals rfl

/-- The faces of an action: the quads of a tube, or none unless an outline is closed. -/
theorem faces_of_action {x : Symbol K} (hx : x.tag.atMostTubes = true) {action : Action K} (h : x.action? = some action)
    (t : Turtle K) :
    let fs := (t.act action).2.faces.toList
    fs.length = (if x.tag.drawsTube then 4 else 0) ∧ ∀ f ∈ fs, f.length = 4 := by
  obtain ⟨tag, amount⟩ := x
  cases tag
  case endPoly => cases hx
  case forward | trunk =>
    cases h
    exact ⟨rfl, by simp [Turtle.act, Turtle.tube]⟩
  case setRadius =>
    obtain ⟨radius, -, rfl⟩ := Option.map_eq_some_iff.mp h
    exact ⟨rfl, nofun⟩
  case skip | turn | startPoly | horiz =>
    cases h
    exact ⟨rfl, nofun⟩
  all_goals cases h

theorem faces_of_perform {x : Symbol K} {m m' : Machine (Turtle K)} {fs : List (Face K)}
    (hx : x.tag.atMostTubes = true) (h : it.perform x m = .ok (m', fs)) :
    fs.length = (if x.tag.drawsTube then 4 else 0) ∧ ∀ f ∈ fs, f.length = 4 := by
  cases perform_ok_iff.mp h with
  | act action ha => exact faces_of_action hx ha m.turtle
  | stamp s fs htag => rw [htag] at hx; cases hx
  | steer f htag => rw [htag] at hx; cases hx
  | push htag => rw [htag]; exact ⟨rfl, nofun⟩
  | pop t rest htag => rw [htag]; exact ⟨rfl, nofun⟩
  | idle htag => rw [htag]; exact ⟨rfl, nofun⟩
  | pass htag =>
    rw [isMeaningless_of_atMostTubes hx] at htag
    cases hname : x.tag with
    | nonterminal name => exact ⟨rfl, nofun⟩
    | _ => rw [hname] at htag; cases htag

/-! ## Programs -/

/-- **A program of tubes** draws four quads for each symbol for a tube, and nothing else. -/
theorem faces_of_executes {xs : List (Symbol K)} {m m' : Machine (Turtle K)} {fs : List (Face K)}
    (hxs : ∀ x ∈ xs, x.tag.atMostTubes = true) (h : it.Executes xs m fs m') :
    fs.length = 4 * tubes xs ∧ ∀ f ∈ fs, f.length = 4 := by
  induction h with
  | nil m => exact ⟨rfl, nofun⟩
  | @cons x xs m m₁ m' fs gs hx _ ih =>
    obtain ⟨htag, htags⟩ := List.forall_mem_cons.mp hxs
    obtain ⟨hlength, hquads⟩ := faces_of_perform htag hx
    obtain ⟨hlengths, hrest⟩ := ih htags
    refine ⟨?_, List.forall_mem_append.mpr ⟨hquads, hrest⟩⟩
    rw [List.length_append, hlength, hlengths, tubes, tubes, List.countP_cons]
    split <;> omega

/-- What a program of tubes counts, for a number of faces. -/
theorem reportOf_of_atMostTubes {xs : List (Symbol K)} (hxs : ∀ x ∈ xs, x.tag.atMostTubes = true) (depth faces : Nat) :
    it.reportOf (Turtle K) depth xs faces =
      ⟨xs.countP fun x => !x.tag.isNonterminal, faces, buds xs, deepest depth xs⟩ := by
  have htags : ∀ x ∈ xs, it.isMeaningless (Turtle K) x.tag = x.tag.isNonterminal :=
    fun x hx => isMeaningless_of_atMostTubes (hxs x hx)
  simp only [reportOf, Report.mk.injEq, true_and, and_true]
  exact ⟨List.countP_congr fun x hx => by rw [htags x hx], List.countP_congr fun x hx => by rw [htags x hx]⟩

/-- **The drawing of a program of tubes** that a lenient interpreter makes with a stack that is deep enough, whatever
ornament it has. -/
theorem draw_of_tally {k b t : Nat} {xs : List (Symbol K)} (hxs : Tally k b t xs) (hlenient : it.strict = false)
    (hlimit : k ≤ it.maxStackDepth) (turtle : Turtle K) :
    ∃ fs m', it.Executes xs ⟨turtle, []⟩ fs m' ∧
      ∃ drawing, (it.draw xs turtle).1 = .ok drawing ∧
        drawing.report = ⟨xs.countP fun x => !x.tag.isNonterminal, 4 * t, b, deepest 0 xs⟩ ∧
        drawing.mesh.IsQuads (4 * t) := by
  obtain ⟨hbalanced, hdepth⟩ := closes_zero_iff.mp hxs.closes
  -- nothing is stamped, so it does not matter whether the ornament can be
  obtain ⟨fs, m', h⟩ := executes_of_balanced (m := ⟨turtle, []⟩) hbalanced
    (fun i => Int.le_trans (hdepth i) (Int.ofNat_le.mpr hlimit)) hlenient fun x hx htag => by
      have := hxs.tags x hx
      rw [htag] at this
      cases this
  obtain ⟨hlength, hquads⟩ := faces_of_executes hxs.tags h
  rw [hxs.tubes] at hlength
  refine ⟨fs, m', h, _, draw_of_executes h, ?_, ?_⟩
  · rw [reportOf_of_atMostTubes hxs.tags, hlength, hxs.buds]
  · rw [← hlength]
    exact isQuads_ofFaces hquads

end Foliage
