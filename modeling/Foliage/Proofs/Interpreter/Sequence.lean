import Foliage.Proofs.Interpreter.Faults

/-!
# Programs in a row

The run of two programs in a row is the run of the first and, unless that fails, the run of the second on the machine
that the first leaves. A failing first program decides everything (`run_append_of_error`). Behind a first program that
is executed (`run_append_of_executes`), the faces of the two runs follow each other, their reports are joined, and a
fault of the second program is counted from the start of the first.
-/

namespace Foliage

variable {τ K : Type} [TurtleLike τ K] {it : Interpreter K}

open Interpreter

/-- The result of a run behind a run of `n` symbols with the given report. -/
def resultBehind (n : Nat) (r : Report) : Except RunError Report → Except RunError Report
  | .ok s => .ok (r.join s)
  | .error e => .error ⟨n + e.index, e.fault⟩

/-- What two programs in a row have counted, when the first is executed. -/
theorem reportOf_append {p : List (Symbol K)} {m m₁ : Machine τ} {fs : List (Face K)} (h : it.Executes p m fs m₁)
    (q : List (Symbol K)) (n : Nat) :
    it.reportOf τ m.stack.length (p ++ q) (fs.length + n) =
      (it.reportOf τ m.stack.length p fs.length).join (it.reportOf τ m₁.stack.length q n) := by
  simp only [reportOf, Report.join, List.countP_append, deepest_append h]

/-- What follows a program that fails is not run. -/
theorem run_append_of_error {p : List (Symbol K)} {m : Machine τ} {e : RunError}
    (he : (it.run p m).result = .error e) (q : List (Symbol K)) :
    (it.run (p ++ q) m).result = .error e ∧ (it.run (p ++ q) m).machine = (it.run p m).machine ∧
      (it.run (p ++ q) m).trace.faces = (it.run p m).trace.faces := by
  rcases executes_or_stops it p m with ⟨fs, m', h⟩ | ⟨pre, x, post, fs, m', fault, rfl, h, hx⟩
  · rw [(run_of_executes h).2.2] at he
    cases he
  · obtain ⟨hm, hf, hr⟩ := run_of_stops h hx post
    obtain ⟨hm', hf', hr'⟩ := run_of_stops h hx (post ++ q)
    rw [List.append_assoc, List.cons_append, hr', hm', hm]
    exact ⟨hr.symm.trans he, rfl, Array.toList_inj.mp (hf'.trans hf.symm)⟩

/-- What follows a program that is executed is run on the machine that it leaves. -/
theorem run_append_of_executes {p : List (Symbol K)} {m m₁ : Machine τ} {fs : List (Face K)}
    (h : it.Executes p m fs m₁) (q : List (Symbol K)) :
    (it.run (p ++ q) m).machine = (it.run q m₁).machine ∧
      (it.run (p ++ q) m).trace.faces.toList = fs ++ (it.run q m₁).trace.faces.toList ∧
      (it.run (p ++ q) m).result =
        resultBehind p.length (it.reportOf τ m.stack.length p fs.length) (it.run q m₁).result := by
  rcases executes_or_stops it q m₁ with ⟨gs, m', h'⟩ | ⟨pre, x, post, gs, m', fault, rfl, h', hx⟩
  · obtain ⟨hm, hf, hr⟩ := run_of_executes h'
    obtain ⟨hm', hf', hr'⟩ := run_of_executes (h.append h')
    rw [List.length_append, reportOf_append h] at hr'
    rw [hm', hm, hf', hf, hr', hr]
    exact ⟨rfl, rfl, rfl⟩
  · obtain ⟨hm, hf, hr⟩ := run_of_stops h' hx post
    obtain ⟨hm', hf', hr'⟩ := run_of_stops (h.append h') hx post
    rw [← List.append_assoc, hm', hm, hf', hf, hr', hr, List.length_append]
    exact ⟨rfl, rfl, rfl⟩

/-- **Programs in a row.** When the first program fails, the run of both fails with the same fault at the same symbol,
and leaves the same machine and faces. Otherwise the second program is run on the machine that the first leaves: the run
of both ends in the same machine, draws the faces of the first and then those of the second, and either succeeds with
both reports joined, or fails with the fault of the second, at its symbol counted from the start of the first. -/
theorem run_append (it : Interpreter K) (p q : List (Symbol K)) (m : Machine τ) :
    let first := it.run p m
    let second := it.run q first.machine
    let whole := it.run (p ++ q) m
    match first.result with
    | .error e =>
      whole.result = .error e ∧ whole.machine = first.machine ∧ whole.trace.faces = first.trace.faces
    | .ok r =>
      whole.machine = second.machine ∧ whole.trace.faces = first.trace.faces ++ second.trace.faces ∧
        match second.result with
        | .error e => whole.result = .error ⟨p.length + e.index, e.fault⟩
        | .ok s => whole.result = .ok ⟨r.executed + s.executed, r.faces + s.faces, r.unresolved + s.unresolved,
            max r.maxDepth s.maxDepth⟩ := by
  intro first second whole
  cases hr : first.result with
  | error e => exact run_append_of_error hr q
  | ok r =>
    obtain ⟨fs, m₁, h⟩ := run_ok_iff.mp ⟨r, hr⟩
    obtain ⟨hm, hf, hr'⟩ := run_of_executes h
    obtain ⟨hm', hf', hr''⟩ := run_append_of_executes h q
    obtain rfl := Except.ok.inj (hr.symm.trans hr')
    have hsecond : second = it.run q m₁ := congrArg (it.run q) hm
    rw [← hsecond] at hm' hf' hr''
    refine ⟨hm', Array.toList_inj.mp ?_, ?_⟩
    · rw [Array.toList_append, hf', hf]
    · cases hs : second.result with
      | error e => rw [hs] at hr''; exact hr''
      | ok s => rw [hs] at hr''; exact hr''

end Foliage
