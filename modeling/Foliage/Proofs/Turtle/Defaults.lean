import Foliage.Proofs.Interpreter.Events
import Foliage.Proofs.Interpreter.Invariant

/-!
# Amounts that are left open

A symbol without an amount takes it from the turtle that executes it, and the turtles of a run have all the step and
the angle of the first one: no action changes them, and a restored turtle is one that was saved
(`keeps_hasDefaults`). So nothing is changed in a run when the open amounts of its program are filled in with the step
and the angle of the turtle that it starts with (`run_withDefaults`). Symbol by symbol, the filled-in one does to a
machine of such turtles what the open one does (`obey_withDefaults`).
-/

namespace Foliage

variable {K : Type}

/-- A move without an amount with `stepSize` for it, and a turn without one with `stepAngle`. Every other symbol
stays. -/
def Symbol.withDefaults (stepSize stepAngle : K) (x : Symbol K) : Symbol K :=
  match x.tag with
  | .forward | .skip | .trunk => .ofAmount x.tag (x.amountOr stepSize)
  | .turn _ => .ofAmount x.tag (x.amountOr stepAngle)
  | _ => x

/-- The step and the angle that a turtle takes where an amount is left open. -/
structure Turtle.HasDefaults (stepSize stepAngle : K) (t : Turtle K) : Prop where
  stepSize : t.stepSize = stepSize
  stepAngle : t.stepAngle = stepAngle

@[simp] theorem tag_withDefaults (stepSize stepAngle : K) (x : Symbol K) :
    (x.withDefaults stepSize stepAngle).tag = x.tag := by
  obtain ⟨tag, amount⟩ := x
  cases tag <;> rfl

variable [Scalar K] {stepSize stepAngle : K} {it : Interpreter K}

theorem hasDefaults_act (t : Turtle K) (action : Action K) (h : t.HasDefaults stepSize stepAngle) :
    (t.act action).1.HasDefaults stepSize stepAngle := by
  obtain ⟨hsize, hangle⟩ := h
  cases action <;> exact ⟨hsize, hangle⟩

theorem keeps_hasDefaults : TurtleLike.Keeps fun t : Turtle K => t.HasDefaults stepSize stepAngle where
  act := hasDefaults_act
  steer f hf := by cases hf

open Interpreter

/-! ## One symbol -/

theorem obey_withDefaults {m : Machine (Turtle K)} (h : m.turtle.HasDefaults stepSize stepAngle) (x : Symbol K) :
    it.obey (x.withDefaults stepSize stepAngle) m = it.obey x m := by
  obtain ⟨tag, amount⟩ := x
  obtain ⟨rfl, rfl⟩ := h
  cases tag <;> rfl

theorem step_withDefaults {p : Progress (Turtle K) K} (h : p.machine.turtle.HasDefaults stepSize stepAngle)
    (x : Symbol K) : it.step (x.withDefaults stepSize stepAngle) p = it.step x p := by
  unfold step
  rw [obey_withDefaults h, tag_withDefaults]

/-! ## Runs -/

/-- A run under way goes on as before when the rest of its program is filled in. -/
theorem proceed_withDefaults {p : Progress (Turtle K) K} (h : p.machine.All (·.HasDefaults stepSize stepAngle))
    (xs : List (Symbol K)) : it.proceed (xs.map (.withDefaults stepSize stepAngle)) p = it.proceed xs p := by
  induction xs generalizing p with
  | nil => rfl
  | cons x xs ih =>
    rw [List.map_cons, proceed, proceed, step_withDefaults (h _ List.mem_cons_self)]
    cases hstep : it.step x p with
    | error fault => rfl
    | ok p' =>
      obtain ⟨fs, hx⟩ := perform_of_step hstep
      exact ih (all_of_perform keeps_hasDefaults h hx)

/-- **Open amounts mean those of the first turtle.** Run a program on a turtle with nothing saved, and once more with
the step of this turtle as the amount of every move that has none, and its angle as the amount of every turn that has
none. Both runs are the same: they end alike, with the same error at the same symbol or with equal reports, they leave
the same turtle and the same saved ones, and they draw the same faces in the same order. -/
theorem run_withDefaults (it : Interpreter K) (xs : List (Symbol K)) (t : Turtle K) :
    it.run (xs.map (.withDefaults t.stepSize t.stepAngle)) ⟨t, []⟩ = it.run xs ⟨t, []⟩ := by
  have hfirst : Machine.All (·.HasDefaults t.stepSize t.stepAngle) ⟨t, []⟩ := by
    intro u hu
    rw [List.mem_singleton.mp hu]
    exact ⟨rfl, rfl⟩
  exact proceed_withDefaults hfirst xs

end Foliage
