import Foliage.Proofs.Interpreter.Invariant

/-!
# Operations and histories

A turtle need not be driven by a program. An `Operation` is what turtles of every kind can be asked for one at a time,
and a `Maneuver` is such an operation or a correction of the heading, which is for a single turtle alone. A history mixes
them with runs: each `Deed` of it is done by the turtle itself or is the run of a program, and all runs share the stack
(`Machine.afterDeeds`). What no action and no steering ends holds behind any operations (`keeps_operate`), and what no
deed of a turtle's own ends either holds behind any history (`all_afterDeeds`).
-/

namespace Foliage

/-- What turtles of every kind can be asked for. -/
inductive Operation (K : Type) where
  | act (action : Action K)
  | stamp (s : Stamp K)
  | consider

namespace TurtleLike

variable {τ K : Type} [TurtleLike τ K]

/-- A turtle after an operation, and what it leaves behind. A stamp that cannot give its faces leaves nothing, and a
turtle with nothing to steer by stays as it is. -/
def operate (t : τ) : Operation K → τ × Trace K
  | .act action => act t action
  | .stamp s => (t, .ofFaces ((stamp? t s).getD []))
  | .consider => (consider? t).getD (t, .none)

/-- A turtle after several operations, and what they leave behind. -/
def operateAll (t : τ) : List (Operation K) → τ × Trace K
  | [] => (t, .none)
  | op :: ops =>
    let first := operate t op
    let rest := operateAll first.1 ops
    (rest.1, first.2 ++ rest.2)

theorem operateAll_append (t : τ) (ops more : List (Operation K)) :
    (operateAll t (ops ++ more)).1 = (operateAll (operateAll t ops).1 more).1 := by
  induction ops generalizing t with
  | nil => rfl
  | cons op ops ih => exact ih _

end TurtleLike

/-- What a single turtle can be asked for. -/
inductive Maneuver (K : Type) where
  | operate (op : Operation K)
  | orthonormalize
  | headToward (target : Vec K)

namespace Turtle

variable {K : Type} [Scalar K]

/-- A turtle after a maneuver. -/
def maneuver (t : Turtle K) : Maneuver K → Turtle K
  | .operate op => (TurtleLike.operate t op).1
  | .orthonormalize => t.orthonormalize
  | .headToward target => (t.headToward target).2

/-- A turtle after several maneuvers. -/
def maneuverAll (t : Turtle K) (ms : List (Maneuver K)) : Turtle K := ms.foldl maneuver t

end Turtle

/-- One entry of a history: the turtle does something itself, or is driven by a program. -/
inductive Deed (δ K : Type) where
  | direct (d : δ)
  | run (it : Interpreter K) (program : List (Symbol K))

namespace Machine

variable {τ δ K : Type} [TurtleLike τ K]

/-- A machine after a deed, when `f` tells what the turtle does itself. -/
def deed (f : τ → δ → τ) (m : Machine τ) : Deed δ K → Machine τ
  | .direct d => { m with turtle := f m.turtle d }
  | .run it program => (it.run program m).machine

/-- A machine after a history. -/
def afterDeeds (f : τ → δ → τ) (m : Machine τ) (deeds : List (Deed δ K)) : Machine τ := deeds.foldl (deed f) m

end Machine

open TurtleLike

/-! ## Invariants of operations and histories -/

section Invariant

variable {τ δ K : Type} [TurtleLike τ K] {P : τ → Prop}

theorem keeps_operate (hP : Keeps P) {t : τ} (ht : P t) (op : Operation K) : P (operate t op).1 := by
  cases op with
  | act action => exact hP.act t action ht
  | stamp s => exact ht
  | consider =>
    cases hf : (steer? : Option (τ → τ × Trace K)) with
    | none => simpa [operate, consider?, hf] using ht
    | some f => simpa [operate, consider?, hf] using hP.steer f hf t ht

theorem all_deed (hP : Keeps P) {f : τ → δ → τ} (hf : ∀ t d, P t → P (f t d)) {m : Machine τ} (hm : m.All P)
    (d : Deed δ K) : (m.deed f d).All P := by
  cases d with
  | direct d => exact hm.withTurtle (hf _ d (hm _ List.mem_cons_self))
  | run it program => exact all_of_run hP hm it program

/-- **Invariants survive histories.** -/
theorem all_afterDeeds (hP : Keeps P) {f : τ → δ → τ} (hf : ∀ t d, P t → P (f t d)) {m : Machine τ} (hm : m.All P)
    (deeds : List (Deed δ K)) : (m.afterDeeds f deeds).All P := by
  induction deeds generalizing m with
  | nil => exact hm
  | cons d deeds ih => exact ih (all_deed hP hf hm d)

end Invariant

end Foliage
