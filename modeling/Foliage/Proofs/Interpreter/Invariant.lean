import Foliage.Proofs.Interpreter.Execution

/-!
# Invariants of turtles

A property of turtles that no action and no steering ends (`TurtleLike.Keeps`) holds of the turtle and of all saved
ones behind any number of runs, when it has held before them (`all_afterRuns`). The runs may have different
interpreters, and some may have failed: a run ends where a prefix of its program is executed to, and a saved turtle
comes back as it was.
-/

namespace Foliage

variable {τ K : Type} [TurtleLike τ K] {it : Interpreter K} {P : τ → Prop}

/-- No action and no steering ends a property of turtles. -/
structure TurtleLike.Keeps (P : τ → Prop) : Prop where
  act : ∀ t action, P t → P (TurtleLike.act t action).1
  steer : ∀ f, TurtleLike.steer? = some f → ∀ t, P t → P (f t).1

/-- The turtle and all saved ones have a property. -/
def Machine.All {τ : Type} (P : τ → Prop) (m : Machine τ) : Prop := ∀ t ∈ m.turtle :: m.stack, P t

/-- The machine behind several runs in a row, each with an interpreter and a program of its own. -/
def Machine.afterRuns (m : Machine τ) (runs : List (Interpreter K × List (Symbol K))) : Machine τ :=
  runs.foldl (fun m run => (run.1.run run.2 m).machine) m

open Interpreter

theorem Machine.All.withTurtle {m : Machine τ} (hm : m.All P) {t : τ} (ht : P t) :
    Machine.All P { m with turtle := t } :=
  List.forall_mem_cons.mpr ⟨ht, (List.forall_mem_cons.mp hm).2⟩

theorem all_of_perform (hP : TurtleLike.Keeps P) {x : Symbol K} {m m' : Machine τ} {fs : List (Face K)}
    (hm : m.All P) (h : it.perform x m = .ok (m', fs)) : m'.All P := by
  obtain ⟨ht, hs⟩ := List.forall_mem_cons.mp hm
  cases perform_ok_iff.mp h with
  | act action _ => exact hm.withTurtle (hP.act _ action ht)
  | steer f _ hf => exact hm.withTurtle (hP.steer f hf _ ht)
  | push => exact List.forall_mem_cons.mpr ⟨ht, hm⟩
  | pop t rest _ hstack =>
    rw [hstack] at hs
    exact hs
  | stamp | idle | pass => exact hm

theorem all_of_executes (hP : TurtleLike.Keeps P) {xs : List (Symbol K)} {m m' : Machine τ} {fs : List (Face K)}
    (hm : m.All P) (h : it.Executes xs m fs m') : m'.All P := by
  induction h with
  | nil => exact hm
  | cons hx _ ih => exact ih (all_of_perform hP hm hx)

theorem all_of_run (hP : TurtleLike.Keeps P) {m : Machine τ} (hm : m.All P) (it : Interpreter K)
    (xs : List (Symbol K)) : (it.run xs m).machine.All P := by
  obtain ⟨pre, fs, -, h⟩ := run_executes it xs m
  exact all_of_executes hP hm h

/-- **Invariants survive runs**, whether these succeed or fail. -/
theorem all_afterRuns (hP : TurtleLike.Keeps P) {m : Machine τ} (hm : m.All P)
    (runs : List (Interpreter K × List (Symbol K))) : (m.afterRuns runs).All P := by
  induction runs generalizing m with
  | nil => exact hm
  | cons run runs ih => exact ih (all_of_run hP hm run.1 run.2)

end Foliage
