import Foliage.Proofs.Brackets
import Foliage.Proofs.Interpreter.Execution

/-!
# Bracket isolation

A program that closes what it finds open takes exactly that from the stack and leaves what lies below as it was
(`stack_of_closes`). So a balanced program in brackets leaves the whole machine as it was, whatever it does inside
(`executes_bracketed`), and can be cut out of a run that succeeds: only the faces it drew are missing (`run_bracketed`).
-/

namespace Foliage

variable {τ K : Type} [TurtleLike τ K] {it : Interpreter K}

open Interpreter

/-! ## What brackets and other symbols do to the stack -/

theorem perform_push {x : Symbol K} {m m' : Machine τ} {fs : List (Face K)} (h : it.perform x m = .ok (m', fs))
    (hx : x.tag = .push) :
    m' = ⟨m.turtle, m.turtle :: m.stack⟩ ∧ fs = [] ∧ m.stack.length < it.maxStackDepth := by
  cases perform_ok_iff.mp h with
  | push _ hroom => exact ⟨rfl, rfl, hroom⟩
  | act action ha => exact absurd hx (not_bracket_of_action ha).1
  | pass hm => exact absurd hx (not_bracket_of_isMeaningless hm).1
  | stamp s fs hx' | steer f hx' | pop t rest hx' | idle hx' =>
    rw [hx'] at hx
    cases hx

theorem perform_pop {x : Symbol K} {m m' : Machine τ} {fs : List (Face K)} (h : it.perform x m = .ok (m', fs))
    (hx : x.tag = .pop) : m.stack = m'.turtle :: m'.stack ∧ fs = [] := by
  cases perform_ok_iff.mp h with
  | pop t rest _ hs => exact ⟨hs, rfl⟩
  | act action ha => exact absurd hx (not_bracket_of_action ha).2
  | pass hm => exact absurd hx (not_bracket_of_isMeaningless hm).2
  | stamp s fs hx' | steer f hx' | push hx' | idle hx' =>
    rw [hx'] at hx
    cases hx

theorem perform_plain {x : Symbol K} {m m' : Machine τ} {fs : List (Face K)} (h : it.perform x m = .ok (m', fs))
    (hpush : x.tag ≠ .push) (hpop : x.tag ≠ .pop) : m'.stack = m.stack := by
  cases perform_ok_iff.mp h with
  | push hx => exact absurd hx hpush
  | pop t rest hx => exact absurd hx hpop
  | _ => rfl

/-! ## Closing programs -/

/-- **The frame of a program**: one that closes what lies on top of a stack leaves the rest of it. -/
theorem stack_of_closes {k n : Nat} {xs : List (Symbol K)} {m m' : Machine τ} {fs : List (Face K)} {top base : List τ}
    (hc : Closes k n xs) (h : it.Executes xs m fs m') (hs : m.stack = top ++ base) (hn : top.length = n) :
    m'.stack = base := by
  induction h generalizing n top with
  | nil m =>
    obtain rfl := closes_nil.mp hc
    rw [hs, List.eq_nil_of_length_eq_zero hn, List.nil_append]
  | @cons x xs m m₁ m' fs gs hx _ ih =>
    by_cases hpush : x.tag = .push
    · obtain ⟨rfl, -⟩ := perform_push hx hpush
      have hs' : m.turtle :: m.stack = m.turtle :: top ++ base := by rw [hs, List.cons_append]
      exact ih ((closes_cons_push hpush).mp hc) hs' (by rw [List.length_cons, hn])
    by_cases hpop : x.tag = .pop
    · obtain ⟨hm, -⟩ := perform_pop hx hpop
      cases n with
      | zero => exact absurd hc (not_closes_cons_pop hpop)
      | succ n =>
        cases top with
        | nil => cases hn
        | cons t top =>
          rw [hs, List.cons_append, List.cons.injEq] at hm
          exact ih ((closes_cons_pop hpop).mp hc).2 hm.2.symm (Nat.succ.inj hn)
    · exact ih ((closes_cons_plain hpush hpop).mp hc) (by rw [perform_plain hx hpush hpop, hs]) hn

/-- An execution of a balanced program leaves the stack as it was. -/
theorem stack_of_balanced {xs : List (Symbol K)} {m m' : Machine τ} {fs : List (Face K)} (hb : Balanced xs)
    (h : it.Executes xs m fs m') : m'.stack = m.stack := by
  obtain ⟨k, hc⟩ := balanced_iff_closes.mp hb
  exact stack_of_closes hc h (List.nil_append _).symm rfl

/-- An execution of a balanced program in brackets leaves the machine as it was. -/
theorem executes_bracketed {x y : Symbol K} {body : List (Symbol K)} {m m' : Machine τ} {fs : List (Face K)}
    (hb : Balanced body) (hx : x.tag = .push) (hy : y.tag = .pop) (h : it.Executes (x :: body ++ [y]) m fs m') :
    m' = m ∧ ∃ m₁, it.Executes body ⟨m.turtle, m.turtle :: m.stack⟩ fs m₁ := by
  obtain ⟨m₁, fs₁, gs₁, hpush, htail, rfl⟩ := executes_cons_iff.mp h
  obtain ⟨rfl, rfl, -⟩ := perform_push hpush hx
  obtain ⟨fs₂, m₂, gs₂, hbody, hpop, rfl⟩ := executes_concat_iff.mp htail
  obtain ⟨hs, rfl⟩ := perform_pop hpop hy
  -- what the restore takes is what the save has put there
  rw [stack_of_balanced hb hbody, List.cons.injEq] at hs
  obtain ⟨turtle, stack⟩ := m
  obtain ⟨turtle', stack'⟩ := m'
  obtain ⟨rfl, rfl⟩ := hs
  exact ⟨rfl, m₂, by simpa using hbody⟩

/-! ## Cutting a bracketed program out -/

/-- **Bracket isolation.** A balanced program in brackets can be cut out of a run that succeeds: the run without it
succeeds, ends in the same machine, and draws the same faces but for the block that the bracketed program has drawn
in the state it was reached in. -/
theorem run_bracketed {p body q : List (Symbol K)} {m : Machine τ} {report : Report} {a b : Option K}
    (hb : Balanced body) (hr : (it.run (p ++ ⟨.push, a⟩ :: body ++ ⟨.pop, b⟩ :: q) m).result = .ok report) :
    let whole := it.run (p ++ ⟨.push, a⟩ :: body ++ ⟨.pop, b⟩ :: q) m
    let cut := it.run (p ++ q) m
    let before := it.run p m
    let inside := it.run body ⟨before.machine.turtle, before.machine.turtle :: before.machine.stack⟩
    (∃ report', cut.result = .ok report') ∧ cut.machine = whole.machine ∧
    ∃ after, whole.trace.faces.toList = before.trace.faces.toList ++ inside.trace.faces.toList ++ after ∧
      cut.trace.faces.toList = before.trace.faces.toList ++ after := by
  intro whole cut before inside
  obtain ⟨fs, m', h⟩ := run_ok_iff.mp ⟨report, hr⟩
  obtain ⟨hm, hf, -⟩ := run_of_executes h
  have hsplit : p ++ ⟨.push, a⟩ :: body ++ ⟨.pop, b⟩ :: q = p ++ ((⟨.push, a⟩ :: body ++ [⟨.pop, b⟩]) ++ q) := by simp
  rw [hsplit] at h
  obtain ⟨fs₁, m₁, gs₁, hp, htail, rfl⟩ := executes_append_iff.mp h
  obtain ⟨fs₂, m₂, fs₃, hbrackets, hq, rfl⟩ := executes_append_iff.mp htail
  obtain ⟨rfl, m₃, hbody⟩ := executes_bracketed hb rfl rfl hbrackets
  obtain ⟨hm₁, hf₁, -⟩ := run_of_executes hp
  obtain ⟨hmc, hfc, hrc⟩ := run_of_executes (hp.append hq)
  rw [← hm₁] at hbody
  obtain ⟨-, hf₂, -⟩ := run_of_executes hbody
  exact ⟨⟨_, hrc⟩, hmc.trans hm.symm, fs₃, by rw [hf, hf₁, hf₂, List.append_assoc], by rw [hfc, hf₁]⟩

/-- An outline that is begun in brackets, beside brackets of its own, and never closed is not begun behind them. -/
theorem run_bracketed_outline :
    let body : List (Symbol Float) :=
      [.bare .startPoly, .bare .push, .ofAmount .setRadius 2, .bare .pop, .bare .forward]
    let whole := [.bare .forward] ++ .bare .push :: body ++ .bare .pop :: [.bare .forward]
    let m : Machine (Turtle Float) := ⟨.ofConfig .standard, []⟩
    Balanced body ∧ (Interpreter.standard.run whole m).result = .ok ⟨9, 12, 0, 2⟩ ∧
      (Interpreter.standard.run ([.bare .forward] ++ [.bare .forward]) m).machine =
        (Interpreter.standard.run whole m).machine := by
  intro body whole m
  have hb : Balanced body := by
    refine balanced_iff_closes.mpr ⟨1, ?_⟩
    simp [body, Symbol.bare, Symbol.ofAmount, closes_cons_plain, closes_cons_push, closes_cons_pop]
  have hr : (Interpreter.standard.run whole m).result = .ok ⟨9, 12, 0, 2⟩ := rfl
  exact ⟨hb, hr, (run_bracketed hb hr).2.1⟩

end Foliage
