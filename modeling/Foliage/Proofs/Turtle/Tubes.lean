import Foliage.Proofs.Interpreter.Twins
import Foliage.Proofs.Population.Ensemble
import Foliage.Proofs.Turtle.Radius
import Mathlib.Algebra.BigOperators.Ring.List
import Mathlib.Algebra.Ring.Nat

/-!
# Moves with the pen up

A move that draws a tube and the same move without one differ in the tube alone. So a program whose moves all have the
pen up (`Symbol.penUp`) runs as the program itself does: to the same end, past the same machines and with the same
faces, but for the tubes (`run_penUp`). Symbol by symbol the two programs match (`matches_penUp`), and at a symbol that
draws tubes there is one, of four quads, for each turtle that is there (`drawnAt_of_drawsTube`).
-/

namespace Foliage

variable {τ K : Type}

/-- A move that draws made one that does not; every other symbol stays. -/
def Symbol.penUp (x : Symbol K) : Symbol K := if x.tag.drawsTube then { x with tag := .skip } else x

/-- The symbol at `i` stands for a move that draws. -/
def drawsTubeAt (xs : List (Symbol K)) (i : Nat) : Bool := xs[i]?.any fun x => x.tag.drawsTube

/-- Of what a symbol draws, the second list has everything, or nothing if these are tubes. -/
def LosesTubes (x _ : Symbol K) (fs gs : List (Face K)) : Prop := gs = if x.tag.drawsTube then [] else fs

variable [Scalar K]

/-- The tube that a turtle draws on a move. -/
def Turtle.tubeOf (amount : Option K) (t : Turtle K) : List (Face K) := t.tube (t.stride amount)

theorem length_tubes (amount : Option K) (ts : List (Turtle K)) :
    (ts.flatMap (Turtle.tubeOf amount)).length = 4 * ts.length := by
  have hquads : ∀ t : Turtle K, (t.tubeOf amount).length = 4 := fun _ => rfl
  exact length_each_turtle hquads ts

variable [TurtleLike τ K] {it : Interpreter K} {xs : List (Symbol K)} {m : Machine τ}

open Interpreter

/-! ## One symbol -/

omit [Scalar K] in
theorem action?_of_drawsTube {x : Symbol K} (h : x.tag.drawsTube = true) :
    x.action? = some (.forward x.amount) ∧ x.penUp.action? = some (.skip x.amount) := by
  obtain ⟨tag, amount⟩ := x
  cases tag
  case forward | trunk => exact ⟨rfl, rfl⟩
  all_goals cases h

omit [Scalar K] in
theorem penUp_of_not_drawsTube {x : Symbol K} (h : x.tag.drawsTube = false) : x.penUp = x := by
  rw [Symbol.penUp, h]
  rfl

/-- A symbol that draws tubes draws one for each single turtle. -/
theorem perform_of_drawsTube (e : Ensemble τ K) {x : Symbol K} (h : x.tag.drawsTube = true) (m : Machine τ) :
    ∃ m', it.perform x m = .ok (m', (e.turtles m.turtle).flatMap (Turtle.tubeOf x.amount)) := by
  have hact : it.Performs x m _ _ := .act _ (action?_of_drawsTube h).1
  rw [e.faces] at hact
  exact ⟨_, perform_ok_iff.mpr hact⟩

/-- With the pen up, a symbol does to a machine what it does otherwise, and draws no tubes. -/
theorem matches_penUp (e : Ensemble τ K) (x : Symbol K) :
    it.Matches (· = · : Machine τ → Machine τ → Prop) LosesTubes x x.penUp := by
  rintro m _ rfl
  cases hx : x.tag.drawsTube with
  | false =>
    rw [penUp_of_not_drawsTube hx]
    cases hm : it.perform x m with
    | error fault => exact .inl ⟨fault, rfl, rfl⟩
    | ok result => exact .inr ⟨_, _, _, _, rfl, rfl, rfl, by simp [LosesTubes, hx]⟩
  | true =>
    right
    obtain ⟨hdraws, hskips⟩ := action?_of_drawsTube hx
    refine ⟨_, _, _, _, perform_ok_iff.mpr (.act _ hdraws), perform_ok_iff.mpr (.act _ hskips), ?_, ?_⟩
    · rw [e.move]
    · rw [LosesTubes, if_pos hx, e.faces]
      exact List.flatMap_eq_nil_iff.mpr fun u _ => rfl

omit [Scalar K] in
theorem reportOf_penUp (depth faces : Nat) :
    it.reportOf τ depth (xs.map .penUp) faces = it.reportOf τ depth xs faces := by
  refine reportOf_congr (List.forall₂_map_left_iff.mpr (List.forall₂_same.mpr fun x _ depth n => ?_)) depth faces
  obtain ⟨tag, amount⟩ := x
  cases tag <;> exact ⟨rfl, rfl⟩

/-! ## Runs -/

theorem drawnAt_of_drawsTube (e : Ensemble τ K) {i : Nat} {x : Symbol K} (hx : xs[i]? = some x)
    (h : x.tag.drawsTube = true) :
    it.drawnAt xs m i = (it.turtlesAt e xs m i).flatMap (Turtle.tubeOf x.amount) :=
  drawnAt_each_turtle (perform_of_drawsTube e h) hx

/-- The run of a program with the pen up goes as that of the program, but for its tubes: it leaves the same machine and
ends alike, and of all the faces it lacks exactly those that the program draws at symbols for tubes. -/
structure Interpreter.RunsPenUp (it : Interpreter K) (e : Ensemble τ K) (xs : List (Symbol K)) (m : Machine τ) :
    Prop where
  machine : (it.run (xs.map .penUp) m).machine = (it.run xs m).machine
  failed : ∀ error, (it.run (xs.map .penUp) m).result = .error error ↔ (it.run xs m).result = .error error
  /-- The reports differ in the number of faces alone, by four for each symbol for tubes and each turtle there. -/
  succeeded : ∀ report, (it.run xs m).result = .ok report →
    ∃ faces, (it.run (xs.map .penUp) m).result = .ok { report with faces } ∧
      report.faces = faces + 4 * ((List.range xs.length).map fun i =>
        if drawsTubeAt xs i then (it.turtlesAt e xs m i).length else 0).sum
  drawn : (it.run xs m).trace.faces.toList = (List.range xs.length).flatMap (it.drawnAt xs m)
  kept : (it.run (xs.map .penUp) m).trace.faces.toList =
    (List.range xs.length).flatMap fun i => if drawsTubeAt xs i then [] else it.drawnAt xs m i
  tubes : ∀ i x, xs[i]? = some x → x.tag.drawsTube = true →
    it.drawnAt xs m i = (it.turtlesAt e xs m i).flatMap (Turtle.tubeOf x.amount)

theorem matches_map_penUp (it : Interpreter K) (e : Ensemble τ K) (xs : List (Symbol K)) :
    List.Forall₂ (it.Matches (· = · : Machine τ → Machine τ → Prop) LosesTubes) xs (xs.map .penUp) :=
  List.forall₂_map_right_iff.mpr (List.forall₂_same.mpr fun x _ => matches_penUp e x)

theorem drawnAt_penUp (e : Ensemble τ K) {i : Nat} (hi : i < xs.length) :
    it.drawnAt (xs.map .penUp) m i = if drawsTubeAt xs i then [] else it.drawnAt xs m i := by
  have hx := List.getElem?_eq_getElem hi
  have hy : (xs.map Symbol.penUp)[i]? = some xs[i].penUp := by
    rw [List.getElem?_map, hx]
    rfl
  have hdrawn := drawnAt_together (matches_map_penUp it e xs) (fun x _ => (ite_self _).symm) (rfl : m = m) hx hy
  rw [hdrawn, drawsTubeAt, hx]
  rfl

theorem faces_penUp (e : Ensemble τ K) (it : Interpreter K) (xs : List (Symbol K)) (m : Machine τ) :
    (it.run (xs.map .penUp) m).trace.faces.toList =
      (List.range xs.length).flatMap fun i => if drawsTubeAt xs i then [] else it.drawnAt xs m i := by
  rw [faces_run, List.length_map]
  exact List.flatMap_congr fun i hi => drawnAt_penUp e (List.mem_range.mp hi)

/-- The faces that the run of a program has more than that with the pen up. -/
theorem size_faces_penUp (e : Ensemble τ K) (it : Interpreter K) (xs : List (Symbol K)) (m : Machine τ) :
    (it.run xs m).trace.faces.size = (it.run (xs.map .penUp) m).trace.faces.size +
      4 * ((List.range xs.length).map fun i =>
        if drawsTubeAt xs i then (it.turtlesAt e xs m i).length else 0).sum := by
  rw [← Array.length_toList, ← Array.length_toList, faces_penUp e, faces_run, List.length_flatMap, List.length_flatMap,
    ← List.sum_map_mul_left, ← List.sum_map_add]
  refine congrArg List.sum (List.map_congr_left fun i hi => ?_)
  have hlt : i < xs.length := List.mem_range.mp hi
  have hx := List.getElem?_eq_getElem hlt
  cases htube : xs[i].tag.drawsTube with
  | false => simp [drawsTubeAt, hx, htube]
  | true =>
    rw [drawnAt_of_drawsTube e hx htube, length_tubes]
    simp [drawsTubeAt, hx, htube]

theorem runsPenUp (e : Ensemble τ K) (it : Interpreter K) (xs : List (Symbol K)) (m : Machine τ) :
    it.RunsPenUp e xs m := by
  obtain ⟨hmachine, -, hresult⟩ := run_together (matches_map_penUp it e xs) (fun x _ => (ite_self _).symm) (rfl : m = m)
  refine ⟨hmachine.symm, fun error => ?_, fun report hreport => ?_, faces_run it xs m, faces_penUp e it xs m,
    fun i x => drawnAt_of_drawsTube e⟩
  · rcases hresult with ⟨error', he, he'⟩ | ⟨hok, hok'⟩
    · rw [he, he']
    · simp [hok, hok']
  · rcases hresult with ⟨error, he, -⟩ | ⟨hok, hok'⟩
    · rw [he] at hreport
      cases hreport
    · obtain rfl := Except.ok.inj (hok.symm.trans hreport)
      rw [reportOf_penUp] at hok'
      exact ⟨_, hok', size_faces_penUp e it xs m⟩

/-- **Without tubes everything else stays.** Run a program, on a turtle or on a population with any turtles saved, and
once more with the pen up at every move. Both runs end alike: with the same error at the same symbol, or with reports
that differ in the number of faces alone, which falls by four for each symbol for tubes and each member that is there.
They leave the same turtle or population and the same saved ones, and the faces of the second are those of the first but
for the tubes. -/
theorem run_penUp (it : Interpreter K) (xs : List (Symbol K)) :
    (∀ m : Machine (Turtle K), it.RunsPenUp Turtle.alone xs m) ∧
      ∀ m : Machine (Population K), it.RunsPenUp Population.together xs m :=
  ⟨runsPenUp Turtle.alone it xs, runsPenUp Population.together it xs⟩

end Foliage
