import Foliage.Proofs.Interpreter.Execution

/-!
# Faces, symbol by symbol

`it.drawnAt xs m i` are the faces that a run draws at the symbol at `i`: what the run of the first `i + 1` symbols draws
beyond that of the first `i`. The run draws these blocks one after the other (`faces_run`). At a symbol that is
performed the block is what the symbol draws (`drawnAt_of_perform`), and from a symbol on that stops the run all blocks
are empty (`drawnAt_of_stops`).
-/

namespace Foliage

variable {τ K : Type} [TurtleLike τ K] {it : Interpreter K}

/-- The faces that the run of a program draws at the symbol at `i`. -/
def Interpreter.drawnAt (it : Interpreter K) (xs : List (Symbol K)) (m : Machine τ) (i : Nat) : List (Face K) :=
  (it.run (xs.take (i + 1)) m).trace.faces.toList.drop (it.run (xs.take i) m).trace.faces.size

open Interpreter

/-- A longer program draws what a shorter one draws, and goes on from there. -/
theorem faces_prefix_append (it : Interpreter K) (xs ys : List (Symbol K)) (m : Machine τ) :
    (it.run xs m).trace.faces.toList <+: (it.run (xs ++ ys) m).trace.faces.toList := by
  rcases executes_or_stops it xs m with ⟨fs, m', h⟩ | ⟨pre, x, post, fs, m', fault, rfl, h, hx⟩
  · rw [(run_of_executes h).2.1]
    rcases executes_or_stops it ys m' with ⟨gs, m'', h'⟩ | ⟨pre, y, post, gs, m'', fault, rfl, h', hy⟩
    · rw [(run_of_executes (h.append h')).2.1]
      exact List.prefix_append _ _
    · rw [← List.append_assoc, (run_of_stops (h.append h') hy post).2.1]
      exact List.prefix_append _ _
  · have hsame : (it.run (pre ++ x :: post) m).trace.faces.toList =
        (it.run (pre ++ x :: post ++ ys) m).trace.faces.toList := by
      rw [(run_of_stops h hx post).2.1, List.append_assoc, List.cons_append, (run_of_stops h hx _).2.1]
    exact hsame ▸ List.prefix_rfl

theorem faces_run_take_succ (it : Interpreter K) (xs : List (Symbol K)) (m : Machine τ) (i : Nat) :
    (it.run (xs.take (i + 1)) m).trace.faces.toList =
      (it.run (xs.take i) m).trace.faces.toList ++ it.drawnAt xs m i := by
  have htake : xs.take (i + 1) = xs.take i ++ (xs.drop i).take 1 := List.take_add
  have hprefix := faces_prefix_append it (xs.take i) ((xs.drop i).take 1) m
  rw [← htake] at hprefix
  rw [drawnAt, ← Array.length_toList]
  exact (List.prefix_iff_eq_append.mp hprefix).symm

/-- A run draws what its symbols draw, one after the other. -/
theorem faces_run (it : Interpreter K) (xs : List (Symbol K)) (m : Machine τ) :
    (it.run xs m).trace.faces.toList = (List.range xs.length).flatMap (it.drawnAt xs m) := by
  have h : ∀ i, (it.run (xs.take i) m).trace.faces.toList = (List.range i).flatMap (it.drawnAt xs m) := by
    intro i
    induction i with
    | zero => exact (run_of_executes (.nil m)).2.1
    | succ i ih => rw [faces_run_take_succ, ih, List.range_succ, List.flatMap_append, List.flatMap_singleton]
  rw [← h, List.take_length]

theorem drawnAt_of_length_le {xs : List (Symbol K)} {m : Machine τ} {i : Nat} (hi : xs.length ≤ i) :
    it.drawnAt xs m i = [] := by
  rw [drawnAt, List.take_of_length_le hi, List.take_of_length_le (Nat.le_succ_of_le hi), ← Array.length_toList]
  exact List.drop_length

theorem drawnAt_of_perform {pre : List (Symbol K)} {x : Symbol K} {m m₁ m₂ : Machine τ} {fs gs : List (Face K)}
    (h : it.Executes pre m fs m₁) (hx : it.perform x m₁ = .ok (m₂, gs)) (post : List (Symbol K)) :
    it.drawnAt (pre ++ x :: post) m pre.length = gs := by
  have htake : (pre ++ x :: post).take (pre.length + 1) = pre ++ [x] := by
    rw [List.take_length_add_append, List.take_succ_cons, List.take_zero]
  have hone := h.append (.cons hx (.nil m₂))
  rw [List.append_nil] at hone
  rw [drawnAt, htake, List.take_left, ← Array.length_toList, (run_of_executes h).2.1, (run_of_executes hone).2.1,
    List.drop_left]

theorem drawnAt_of_stops {pre : List (Symbol K)} {x : Symbol K} {m m' : Machine τ} {fs : List (Face K)} {fault : Fault}
    (h : it.Executes pre m fs m') (hx : it.perform x m' = .error fault) (post : List (Symbol K)) {i : Nat}
    (hi : pre.length ≤ i) : it.drawnAt (pre ++ x :: post) m i = [] := by
  obtain ⟨j, rfl⟩ := Nat.exists_eq_add_of_le hi
  have hprefix := faces_prefix_append it pre ((x :: post).take j) m
  rw [(run_of_executes h).2.1] at hprefix
  rw [drawnAt, Nat.add_assoc, List.take_length_add_append, List.take_length_add_append, List.take_succ_cons,
    (run_of_stops h hx _).2.1, ← Array.length_toList]
  exact List.drop_of_length_le hprefix.length_le

end Foliage
