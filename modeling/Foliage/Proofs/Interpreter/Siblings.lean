import Foliage.Proofs.Interpreter.Isolation
import Foliage.Proofs.Interpreter.Sequence

/-!
# Sibling branches

A balanced program in brackets gets through just when the stack has room for one more turtle and the program itself
gets through behind the save; the machine comes back as it was (`executes_enclose_iff`). Nothing of one branch is
therefore left for the next: two branches at the same place can change places, and only the order of their faces
changes with them (`siblings_commute`).
-/

namespace Foliage

variable {τ K : Type} [TurtleLike τ K] {it : Interpreter K} {m m' : Machine τ}

open Interpreter

/-- A program in brackets, which may have amounts like every symbol. -/
def enclose (a : Option K) (body : List (Symbol K)) (b : Option K) : List (Symbol K) :=
  ⟨.push, a⟩ :: body ++ [⟨.pop, b⟩]

/-! ## One branch -/

/-- **A branch** gets through just when there is room to save the turtle and its body gets through behind the save. -/
theorem executes_enclose_iff {body : List (Symbol K)} (hb : Balanced body) {a b : Option K} {fs : List (Face K)} :
    it.Executes (enclose a body b) m fs m' ↔
      m' = m ∧ m.stack.length < it.maxStackDepth ∧ ∃ m₁, it.Executes body ⟨m.turtle, m.turtle :: m.stack⟩ fs m₁ := by
  constructor
  · intro h
    obtain ⟨hmachine, hbody⟩ := executes_bracketed hb rfl rfl h
    obtain ⟨m₁, fs₁, gs, hsave, -, -⟩ := executes_cons_iff.mp h
    exact ⟨hmachine, (perform_push hsave rfl).2.2, hbody⟩
  · rintro ⟨rfl, hroom, m₁, hbody⟩
    -- the body leaves on the stack what the save has put there
    have hstack : m₁.stack = m'.turtle :: m'.stack := stack_of_balanced hb hbody
    have hsave : it.perform ⟨.push, a⟩ m' = .ok (⟨m'.turtle, m'.turtle :: m'.stack⟩, []) :=
      perform_ok_iff.mpr (.push rfl hroom)
    have hrestore : it.perform ⟨.pop, b⟩ m₁ = .ok (m', []) := perform_ok_iff.mpr (.pop m'.turtle m'.stack rfl hstack)
    have hwhole := Executes.cons hsave (hbody.append (.cons hrestore (.nil m')))
    rwa [List.append_nil, List.append_nil, List.nil_append] at hwhole

/-! ## Two branches -/

theorem Report.join_comm (r s : Report) : r.join s = s.join r := by
  simp only [Report.join, Nat.add_comm, Nat.max_comm]

/-- Two branches in a row get through just when each of them does. -/
theorem executes_siblings_iff {p q : List (Symbol K)} (hp : Balanced p) (hq : Balanced q) {a b c d : Option K}
    {fs : List (Face K)} :
    it.Executes (enclose a p b ++ enclose c q d) m fs m' ↔
      m' = m ∧ m.stack.length < it.maxStackDepth ∧ ∃ fs₁ fs₂ m₁ m₂, fs = fs₁ ++ fs₂ ∧
        it.Executes p ⟨m.turtle, m.turtle :: m.stack⟩ fs₁ m₁ ∧
          it.Executes q ⟨m.turtle, m.turtle :: m.stack⟩ fs₂ m₂ := by
  rw [executes_append_iff]
  constructor
  · rintro ⟨fs₁, n, fs₂, h₁, h₂, rfl⟩
    obtain ⟨rfl, hroom, m₁, hbody₁⟩ := (executes_enclose_iff hp).mp h₁
    obtain ⟨rfl, -, m₂, hbody₂⟩ := (executes_enclose_iff hq).mp h₂
    exact ⟨rfl, hroom, fs₁, fs₂, m₁, m₂, rfl, hbody₁, hbody₂⟩
  · rintro ⟨rfl, hroom, fs₁, fs₂, m₁, m₂, rfl, hbody₁, hbody₂⟩
    exact ⟨fs₁, m', fs₂, (executes_enclose_iff hp).mpr ⟨rfl, hroom, m₁, hbody₁⟩,
      (executes_enclose_iff hq).mpr ⟨rfl, hroom, m₂, hbody₂⟩, rfl⟩

/-- Two branches that get through in one order get through in the other. -/
theorem executes_swapped {p q : List (Symbol K)} (hp : Balanced p) (hq : Balanced q) {a b c d : Option K}
    (h : ∃ fs m', it.Executes (enclose a p b ++ enclose c q d) m fs m') :
    ∃ fs m', it.Executes (enclose c q d ++ enclose a p b) m fs m' := by
  obtain ⟨fs, m', h⟩ := h
  obtain ⟨-, hroom, fs₁, fs₂, m₁, m₂, -, h₁, h₂⟩ := (executes_siblings_iff hp hq).mp h
  exact ⟨_, m, (executes_siblings_iff hq hp).mpr ⟨rfl, hroom, fs₂, fs₁, m₂, m₁, rfl, h₂, h₁⟩⟩

/-- Two branches count the same in either order. -/
theorem reportOf_siblings {p q : List (Symbol K)} {fs gs : List (Face K)} (hp : it.Executes p m fs m)
    (hq : it.Executes q m gs m) :
    it.reportOf τ m.stack.length (p ++ q) (fs ++ gs).length =
      it.reportOf τ m.stack.length (q ++ p) (gs ++ fs).length := by
  rw [List.length_append, List.length_append, reportOf_append hp, reportOf_append hq, Report.join_comm]

/-- **Sibling branches commute.** Two balanced programs in brackets, one after the other, are run to the end in one
order just when they are in the other. Then both runs leave the machine as it was and have the same report. Each of
the programs is then run to its end alone as well, from the turtle with the same turtle saved on top of the stack; the
faces of the two runs are what these lone runs draw, in the order of the branches. -/
theorem siblings_commute {p q : List (Symbol K)} (hp : Balanced p) (hq : Balanced q) (it : Interpreter K)
    (m : Machine τ) (a b c d : Option K) :
    let whole := it.run (enclose a p b ++ enclose c q d) m
    let swapped := it.run (enclose c q d ++ enclose a p b) m
    let alone := fun body => it.run body ⟨m.turtle, m.turtle :: m.stack⟩
    ((∃ report, whole.result = .ok report) ↔ ∃ report, swapped.result = .ok report) ∧
    ∀ report, whole.result = .ok report →
      swapped.result = .ok report ∧ whole.machine = m ∧ swapped.machine = m ∧
      (∃ report', (alone p).result = .ok report') ∧ (∃ report', (alone q).result = .ok report') ∧
      whole.trace.faces = (alone p).trace.faces ++ (alone q).trace.faces ∧
      swapped.trace.faces = (alone q).trace.faces ++ (alone p).trace.faces := by
  intro whole swapped alone
  refine ⟨?_, fun report hreport => ?_⟩
  · rw [run_ok_iff, run_ok_iff]
    exact ⟨executes_swapped hp hq, executes_swapped hq hp⟩
  · obtain ⟨fs, m', h⟩ := run_ok_iff.mp ⟨report, hreport⟩
    obtain ⟨rfl, hroom, fs₁, fs₂, m₁, m₂, rfl, h₁, h₂⟩ := (executes_siblings_iff hp hq).mp h
    have hfirst : it.Executes (enclose a p b) m' fs₁ m' := (executes_enclose_iff hp).mpr ⟨rfl, hroom, m₁, h₁⟩
    have hsecond : it.Executes (enclose c q d) m' fs₂ m' := (executes_enclose_iff hq).mpr ⟨rfl, hroom, m₂, h₂⟩
    obtain ⟨hm, hf, hr⟩ := run_of_executes h
    obtain ⟨hm', hf', hr'⟩ := run_of_executes (hsecond.append hfirst)
    obtain ⟨-, hf₁, hr₁⟩ := run_of_executes h₁
    obtain ⟨-, hf₂, hr₂⟩ := run_of_executes h₂
    rw [reportOf_siblings hfirst hsecond] at hr
    refine ⟨hr'.trans (hr.symm.trans hreport), hm, hm', ⟨_, hr₁⟩, ⟨_, hr₂⟩, ?_, ?_⟩
    · exact Array.toList_inj.mp (by rw [Array.toList_append, hf, hf₁, hf₂])
    · exact Array.toList_inj.mp (by rw [Array.toList_append, hf', hf₁, hf₂])

/-- A branch in which the only member forks and begins an outline, beside one that draws in a bracket of its own. -/
theorem siblings_commute_fork :
    let s : Skeleton Float := ((Skeleton.single 0).link Skeleton.root ⟨-5, 0, 0⟩).link Skeleton.root ⟨5, 0, 0⟩
    let m : Machine (Population Float) := ⟨.ofTurtle s .standard (.ofConfig .standard), []⟩
    let p : List (Symbol Float) := [.bare .considerData, .bare .startPoly, .bare .forward]
    let q : List (Symbol Float) := [.bare .push, .bare .forward, .bare .pop, .bare (.nonterminal 'A')]
    let whole := Interpreter.standard.run (enclose none p none ++ enclose none q (some 1)) m
    let swapped := Interpreter.standard.run (enclose none q (some 1) ++ enclose none p none) m
    Balanced p ∧ Balanced q ∧ whole.result = .ok ⟨10, 12, 1, 2⟩ ∧ swapped.result = .ok ⟨10, 12, 1, 2⟩ ∧
      whole.machine = m ∧ swapped.machine = m := by
  intro s m p q whole swapped
  have hp : Balanced p := balanced_iff_closes.mpr ⟨0, of_decide_eq_true rfl⟩
  have hq : Balanced q := balanced_iff_closes.mpr ⟨1, of_decide_eq_true rfl⟩
  have hr : whole.result = .ok ⟨10, 12, 1, 2⟩ := by decide +kernel
  obtain ⟨hr', hm, hm', -⟩ := (siblings_commute hp hq .standard m none none none (some 1)).2 _ hr
  exact ⟨hp, hq, hr, hr', hm, hm'⟩

end Foliage
