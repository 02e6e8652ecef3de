import Foliage.Proofs.Interpreter.Faults
import Foliage.Proofs.Interpreter.Isolation

/-!
# Balanced programs run

A lenient interpreter has three reasons left to stop a run: the limit of the stack, a restore of nothing, and an
ornament that cannot give its faces. A balanced program whose depth stays within the limit meets neither of the first
two, so it runs to its end and leaves the stack as it was (`run_of_balanced`). From an empty stack it is enough that the
nesting of the program stays within the limit (`run_of_closes`).
-/

namespace Foliage

variable {τ K : Type} [TurtleLike τ K] {it : Interpreter K}

open Interpreter

/-- No symbol of a balanced program within the limit of the stack has a fault for a lenient interpreter. -/
theorem faultAt?_eq_none_of_balanced {start : Nat} {xs : List (Symbol K)} (hb : Balanced xs)
    (hd : ∀ i, depthAt start xs i ≤ it.maxStackDepth) (hl : it.strict = false) (i : Nat) :
    it.faultAt? τ start xs i = none := by
  cases hx : xs[i]? with
  | none => simp [faultAt?, hx]
  | some x =>
    have hnext := depthAt_succ start hx
    have hlow : 0 ≤ depthAt start xs (i + 1) := by
      have := hb.covered (i + 1)
      rw [depthAt]
      omega
    have hhigh := hd (i + 1)
    have hpush : ¬ (x.tag = .push ∧ (it.maxStackDepth : Int) ≤ depthAt start xs i) := by
      rintro ⟨ht, hle⟩
      rw [ht] at hnext
      simp only [if_true, reduceCtorEq, if_false] at hnext
      omega
    have hpop : ¬ (x.tag = .pop ∧ depthAt start xs i = 0) := by
      rintro ⟨ht, hz⟩
      rw [ht] at hnext
      simp only [if_true, reduceCtorEq, if_false] at hnext
      omega
    simp only [faultAt?, hx, Option.bind_some, faultOf?, if_neg hpush, if_neg hpop, hl, Bool.false_eq_true, false_and,
      if_false]

/-- A balanced program whose depth stays within the limit of the stack is executed by a lenient interpreter, unless it
has a symbol for an ornament that cannot give its faces. -/
theorem executes_of_balanced {xs : List (Symbol K)} {m : Machine τ} (hb : Balanced xs)
    (hd : ∀ i, depthAt m.stack.length xs i ≤ it.maxStackDepth) (hl : it.strict = false)
    (ho : ∀ x ∈ xs, x.tag = .ornament → ∀ s, it.ornament = some s → ∀ t : τ, (TurtleLike.stamp? t s).isSome) :
    ∃ fs m', it.Executes xs m fs m' := by
  rcases executes_or_stops it xs m with h | ⟨pre, x, post, fs, m', fault, rfl, h, hx⟩
  · exact h
  · rcases faultOf?_of_perform hx with hf | ⟨rfl, -, -⟩
    · have hnone := faultAt?_eq_none_of_balanced (τ := τ) hb hd hl pre.length
      rw [faultAt?_of_executes h, hf] at hnone
      cases hnone
    · obtain ⟨htag, s, hs, hstamp⟩ := perform_eq_brokenOrnament_iff.mp hx
      have := ho x (by simp) htag s hs m'.turtle
      rw [hstamp] at this
      cases this

/-- **Balanced programs run.** A balanced program whose depth stays within the limit of the stack is run to its end by a
lenient interpreter, unless an ornament cannot give its faces, and leaves the stack as it was. -/
theorem run_of_balanced {xs : List (Symbol K)} {m : Machine τ} (hb : Balanced xs)
    (hd : ∀ i, depthAt m.stack.length xs i ≤ it.maxStackDepth) (hl : it.strict = false)
    (ho : ∀ s, it.ornament = some s → ∀ t : τ, (TurtleLike.stamp? t s).isSome) :
    (∃ report, (it.run xs m).result = .ok report) ∧ (it.run xs m).machine.stack = m.stack := by
  obtain ⟨fs, m', h⟩ := executes_of_balanced hb hd hl fun _ _ _ => ho
  refine ⟨⟨_, (run_of_executes h).2.2⟩, ?_⟩
  rw [(run_of_executes h).1]
  exact stack_of_balanced hb h

/-- The same from an empty stack, for a program whose nesting is known. -/
theorem run_of_closes {k : Nat} {xs : List (Symbol K)} (h : Closes k 0 xs) (turtle : τ) (hk : k ≤ it.maxStackDepth)
    (hl : it.strict = false) (ho : ∀ s, it.ornament = some s → ∀ t : τ, (TurtleLike.stamp? t s).isSome) :
    (∃ report, (it.run xs ⟨turtle, []⟩).result = .ok report) ∧ (it.run xs ⟨turtle, []⟩).machine.stack = [] := by
  obtain ⟨hb, hd⟩ := closes_zero_iff.mp h
  exact run_of_balanced hb (fun i => Int.le_trans (hd i) (Int.ofNat_le.mpr hk)) hl ho

end Foliage
