import Foliage.Proofs.Interpreter.Faults
import Foliage.Proofs.Interpreter.Strokes

/-!
# Two runs side by side

Two programs are run symbol by symbol on two machines that a relation `R` connects. A symbol matches another when on
connected machines both stop with the same fault, or both are performed, leave connected machines, and draw faces that
a relation `D` connects (`Interpreter.Matches`). Then the programs are executed together or stop together
(`executed_together`): the runs end alike, leave connected machines, and draw connected faces at every symbol
(`run_together`).
-/

namespace Foliage

variable {τ K : Type} [TurtleLike τ K] {it : Interpreter K} {R : Machine τ → Machine τ → Prop}
  {D : Symbol K → Symbol K → List (Face K) → List (Face K) → Prop} {xs ys : List (Symbol K)} {m n : Machine τ}

/-- On connected machines, two symbols stop with the same fault, or are performed, leave connected machines and draw
connected faces. -/
def Interpreter.Matches (it : Interpreter K) (R : Machine τ → Machine τ → Prop)
    (D : Symbol K → Symbol K → List (Face K) → List (Face K) → Prop) (x y : Symbol K) : Prop :=
  ∀ m n, R m n →
    (∃ fault, it.perform x m = .error fault ∧ it.perform y n = .error fault) ∨
      ∃ m' fs n' gs, it.perform x m = .ok (m', fs) ∧ it.perform y n = .ok (n', gs) ∧ R m' n' ∧ D x y fs gs

open Interpreter

/-- Matching programs are executed together, or stop together behind prefixes of the same length. -/
theorem executed_together (hxs : List.Forall₂ (it.Matches R D) xs ys) (hmn : R m n) :
    (∃ fs gs m' n', it.Executes xs m fs m' ∧ it.Executes ys n gs n' ∧ R m' n') ∨
      ∃ pre x post pre' y post' fs gs m' n' fault, xs = pre ++ x :: post ∧ ys = pre' ++ y :: post' ∧
        pre.length = pre'.length ∧ it.Executes pre m fs m' ∧ it.Executes pre' n gs n' ∧
        it.perform x m' = .error fault ∧ it.perform y n' = .error fault ∧ R m' n' := by
  induction hxs generalizing m n with
  | nil => exact .inl ⟨[], [], m, n, .nil m, .nil n, hmn⟩
  | @cons x y xs ys hxy hxs ih =>
    rcases hxy m n hmn with ⟨fault, hx, hy⟩ | ⟨m₁, fs₁, n₁, gs₁, hx, hy, hmn₁, -⟩
    · exact .inr ⟨[], x, xs, [], y, ys, [], [], m, n, fault, rfl, rfl, rfl, .nil m, .nil n, hx, hy, hmn⟩
    · rcases ih hmn₁ with ⟨fs, gs, m', n', h, h', hR⟩ |
        ⟨pre, z, post, pre', w, post', fs, gs, m', n', fault, rfl, rfl, hlength, h, h', hz, hw, hR⟩
      · exact .inl ⟨_, _, m', n', .cons hx h, .cons hy h', hR⟩
      · exact .inr ⟨x :: pre, z, post, y :: pre', w, post', _, _, m', n', fault, rfl, rfl,
          congrArg Nat.succ hlength, .cons hx h, .cons hy h', hz, hw, hR⟩

/-- At every symbol, matching programs draw connected faces. -/
theorem drawnAt_together (hxs : List.Forall₂ (it.Matches R D) xs ys) (hD : ∀ x y, D x y [] []) (hmn : R m n) {i : Nat}
    {x y : Symbol K} (hx : xs[i]? = some x) (hy : ys[i]? = some y) :
    D x y (it.drawnAt xs m i) (it.drawnAt ys n i) := by
  obtain ⟨pre, x, post, rfl, rfl, rfl⟩ := exists_split hx
  obtain ⟨pre', y, post', rfl, hlength, rfl⟩ := exists_split hy
  have hpre : List.Forall₂ (it.Matches R D) pre pre' := by
    have h := List.forall₂_take pre.length hxs
    rwa [List.take_left, ← hlength, List.take_left] at h
  have hxy : it.Matches R D x y := by
    have h := List.forall₂_drop pre.length hxs
    rw [List.drop_left, ← hlength, List.drop_left] at h
    exact (List.forall₂_cons.mp h).1
  rcases executed_together hpre hmn with ⟨fs, gs, m', n', h, h', hR⟩ |
    ⟨before, z, after, before', w, after', fs, gs, m', n', fault, rfl, rfl, -, h, h', hz, hw, -⟩
  · rcases hxy m' n' hR with ⟨fault, hx, hy⟩ | ⟨m₁, fs₁, n₁, gs₁, hx, hy, -, hfaces⟩
    · rw [drawnAt_of_stops h hx post (Nat.le_refl _), drawnAt_of_stops h' hy post' (Nat.le_of_eq hlength)]
      exact hD x y
    · rw [drawnAt_of_perform h hx, ← hlength, drawnAt_of_perform h' hy]
      exact hfaces
  · -- a symbol before this one has stopped both runs
    simp only [List.append_assoc, List.cons_append]
    rw [drawnAt_of_stops h hz _ (by simp), drawnAt_of_stops h' hw _ (by simp [← hlength])]
    exact hD x y

/-- Programs whose symbols count alike one by one have the same report when they are executed. -/
theorem reportOf_congr
    (h : List.Forall₂ (fun x y : Symbol K => ∀ depth n,
      it.reportOne τ depth x n = it.reportOne τ depth y n ∧ depthAfter depth x.tag = depthAfter depth y.tag) xs ys)
    (depth faces : Nat) : it.reportOf τ depth xs faces = it.reportOf τ depth ys faces := by
  induction h generalizing depth with
  | nil => rfl
  | @cons x y xs ys hxy _ ih =>
    obtain ⟨hone, hdepth⟩ := hxy depth 0
    rw [← Nat.zero_add faces, reportOf_cons, reportOf_cons, ih, hone, hdepth]

/-- **Matching programs run alike.** Their runs leave connected machines, draw connected faces at every symbol, and fail
with the same fault at the same symbol or succeed, each with the report of its program. -/
theorem run_together (hxs : List.Forall₂ (it.Matches R D) xs ys) (hD : ∀ x y, D x y [] []) (hmn : R m n) :
    R (it.run xs m).machine (it.run ys n).machine ∧
    (∀ (i : Nat) (x y : Symbol K), xs[i]? = some x → ys[i]? = some y →
      D x y (it.drawnAt xs m i) (it.drawnAt ys n i)) ∧
    ((∃ e, (it.run xs m).result = .error e ∧ (it.run ys n).result = .error e) ∨
      (it.run xs m).result = .ok (it.reportOf τ m.stack.length xs (it.run xs m).trace.faces.size) ∧
        (it.run ys n).result = .ok (it.reportOf τ n.stack.length ys (it.run ys n).trace.faces.size)) := by
  have hdrawn := fun (i : Nat) (x y : Symbol K) (hx : xs[i]? = some x) (hy : ys[i]? = some y) =>
    drawnAt_together hxs hD hmn hx hy
  rcases executed_together hxs hmn with ⟨fs, gs, m', n', h, h', hR⟩ |
    ⟨pre, x, post, pre', y, post', fs, gs, m', n', fault, rfl, rfl, hlength, h, h', hx, hy, hR⟩
  · obtain ⟨hm, hfaces, hresult⟩ := run_of_executes h
    obtain ⟨hm', hfaces', hresult'⟩ := run_of_executes h'
    rw [← Array.length_toList, ← Array.length_toList, hm, hm', hfaces, hfaces']
    exact ⟨hR, hdrawn, .inr ⟨hresult, hresult'⟩⟩
  · obtain ⟨hm, -, hresult⟩ := run_of_stops h hx post
    obtain ⟨hm', -, hresult'⟩ := run_of_stops h' hy post'
    rw [hm, hm']
    exact ⟨hR, hdrawn, .inl ⟨_, hresult, hlength ▸ hresult'⟩⟩

end Foliage
