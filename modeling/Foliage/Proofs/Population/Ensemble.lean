import Foliage.Proofs.Interpreter.Faults
import Foliage.Proofs.Interpreter.Strokes
import Foliage.Proofs.Population.Steering

/-!
# Ensembles

A turtle of any kind stands for some single turtles: a turtle for itself, a population for the turtles of its members.
An `Ensemble` names them and says that what the whole draws is what they draw one after the other, and that it moves
alike whether the moves draw or not. What holds of all ensembles holds of turtles (`Turtle.alone`) and of populations
(`Population.together`).

`it.turtlesAt e xs m i` are the single turtles that a run finds at the symbol at `i`. A symbol at which no machine fails
makes a run draw what it makes each of these turtles draw (`drawnAt_each_turtle`).
-/

namespace Foliage

variable {τ K : Type} [Scalar K]

open TurtleLike

/-- The single turtles for which turtles of a kind stand. -/
structure Ensemble (τ K : Type) [Scalar K] [TurtleLike τ K] where
  /-- The single turtles, in their order. -/
  turtles : τ → List (Turtle K)
  /-- A move that draws leads where the same move leads that does not. -/
  move : ∀ (t : τ) (amount : Option K), (act t (.skip amount)).1 = (act t (.forward amount)).1
  faces : ∀ (t : τ) (action : Action K),
    (act t action).2.faces.toList = (turtles t).flatMap fun u => (u.act action).2.faces.toList
  stamp : ∀ (t : τ) (s : Stamp K), stamp? t s = ((turtles t).mapM fun u : Turtle K => u.stamp? s).map List.flatten

/-- A turtle stands for itself. -/
def Turtle.alone : Ensemble (Turtle K) K where
  turtles t := [t]
  move _ _ := rfl
  faces t action := by simp only [List.flatMap_cons, List.flatMap_nil, List.append_nil]; rfl
  stamp t s := by
    show t.stamp? s = _
    cases h : t.stamp? s <;> simp [h]

/-- A population stands for the turtles of its members. -/
def Population.together : Ensemble (Population K) K where
  turtles p := p.members.map Member.turtle
  move p amount := by
    show (p.act (.skip amount)).1 = (p.act (.forward amount)).1
    simp only [Population.act, List.map_map]
    rfl
  faces p action := by
    rw [List.flatMap_map]
    exact faces_act p action
  stamp p s := by
    show p.stamp? s = _
    rw [List.mapM_map, Population.stamp?]
    rfl

omit [Scalar K] in
/-- Turtles that draw the same number of faces each. -/
theorem length_each_turtle {draw : Turtle K → List (Face K)} {n : Nat} (h : ∀ u, (draw u).length = n)
    (ts : List (Turtle K)) : (ts.flatMap draw).length = n * ts.length := by
  rw [List.length_flatMap, List.map_congr_left fun u _ => h u, List.map_const', List.sum_replicate_nat, Nat.mul_comm]

/-! ## What an ensemble draws in a run -/

section Run

variable [TurtleLike τ K] {it : Interpreter K} {e : Ensemble τ K} {m : Machine τ}

/-- The single turtles that the run of a program finds at the symbol at `i`; none when it does not get there. -/
def Interpreter.turtlesAt (it : Interpreter K) (e : Ensemble τ K) (xs : List (Symbol K)) (m : Machine τ) (i : Nat) :
    List (Turtle K) :=
  match (it.run (xs.take i) m).result with
  | .ok _ => e.turtles (it.run (xs.take i) m).machine.turtle
  | .error _ => []

open Interpreter

theorem turtlesAt_of_executes {pre : List (Symbol K)} {m' : Machine τ} {fs : List (Face K)}
    (h : it.Executes pre m fs m') (post : List (Symbol K)) :
    it.turtlesAt e (pre ++ post) m pre.length = e.turtles m'.turtle := by
  obtain ⟨hm, -, hr⟩ := run_of_executes h
  simp only [turtlesAt, List.take_left, hr, hm]

theorem turtlesAt_of_stops {pre : List (Symbol K)} {x : Symbol K} {m' : Machine τ} {fs : List (Face K)} {fault : Fault}
    (h : it.Executes pre m fs m') (hx : it.perform x m' = .error fault) (post : List (Symbol K)) {i : Nat}
    (hi : pre.length < i) : it.turtlesAt e (pre ++ x :: post) m i = [] := by
  obtain ⟨j, rfl⟩ := Nat.exists_eq_add_of_le (Nat.succ_le_of_lt hi)
  have htake : (pre ++ x :: post).take (pre.length.succ + j) = pre ++ x :: post.take j := by
    rw [Nat.succ_add_eq_add_succ, List.take_length_add_append, List.take_succ_cons]
  simp only [turtlesAt, htake, (run_of_stops h hx (post.take j)).2.2]

/-- Where no machine fails at a symbol, and the symbol makes every single turtle draw its own faces, a run draws there
the faces of the turtles that it finds. -/
theorem drawnAt_each_turtle {x : Symbol K} {draw : Turtle K → List (Face K)}
    (h : ∀ m : Machine τ, ∃ m', it.perform x m = .ok (m', (e.turtles m.turtle).flatMap draw)) {xs : List (Symbol K)}
    {i : Nat} (hx : xs[i]? = some x) : it.drawnAt xs m i = (it.turtlesAt e xs m i).flatMap draw := by
  obtain ⟨pre, x, post, rfl, rfl, rfl⟩ := exists_split hx
  rcases executes_or_stops it pre m with ⟨fs, m', hpre⟩ | ⟨pre, y, after, fs, m', fault, rfl, hpre, hy⟩
  · obtain ⟨m'', hm''⟩ := h m'
    rw [drawnAt_of_perform hpre hm'', turtlesAt_of_executes hpre]
  · simp only [List.append_assoc, List.cons_append]
    rw [drawnAt_of_stops hpre hy _ (by simp), turtlesAt_of_stops hpre hy _ (by simp), List.flatMap_nil]

end Run

end Foliage
