import Foliage.Proofs.Interpreter.Step

/-!
# Executions

`it.Executes xs m faces m'` says that the interpreter gets through the program `xs` from the machine `m`, draws
`faces` on the way and ends in `m'`. The bookkeeping of a run (report, reported tags, events) is not part of it, so
that two runs can be compared by the machines they pass through.

* A program is executed to its end or is stopped by one symbol behind a prefix that is executed
  (`executes_or_stops`).
* The first gives a run that succeeds, with the machine and the faces of the execution and a report that depends on
  the program, the depth of the stack and the number of faces alone (`run_of_executes`); the second gives a run that
  fails at that symbol, with the machine and the faces of the prefix (`run_of_stops`).
* Executions of two programs compose, and split (`executes_append_iff`).
-/

namespace Foliage

variable {τ K : Type} [TurtleLike τ K] {it : Interpreter K}

/-! ## Executions -/

/-- The interpreter gets through a program from one machine to another, with the given faces. -/
inductive Interpreter.Executes (it : Interpreter K) : List (Symbol K) → Machine τ → List (Face K) → Machine τ → Prop
  | nil (m : Machine τ) : Executes it [] m [] m
  | cons {x : Symbol K} {xs : List (Symbol K)} {m m₁ m' : Machine τ} {fs gs : List (Face K)} :
      it.perform x m = .ok (m₁, fs) → Executes it xs m₁ gs m' → Executes it (x :: xs) m (fs ++ gs) m'

open Interpreter

theorem Interpreter.Executes.append {xs ys : List (Symbol K)} {m m₁ m' : Machine τ} {fs gs : List (Face K)}
    (h : it.Executes xs m fs m₁) (h' : it.Executes ys m₁ gs m') : it.Executes (xs ++ ys) m (fs ++ gs) m' := by
  induction h with
  | nil m => exact h'
  | cons hx _ ih => rw [List.append_assoc]; exact .cons hx (ih h')

/-- An execution of two programs in a row passes through a machine between them. -/
theorem executes_append_iff {xs ys : List (Symbol K)} {m m' : Machine τ} {faces : List (Face K)} :
    it.Executes (xs ++ ys) m faces m' ↔
      ∃ fs m₁ gs, it.Executes xs m fs m₁ ∧ it.Executes ys m₁ gs m' ∧ faces = fs ++ gs := by
  constructor
  · intro h
    induction xs generalizing m faces with
    | nil => exact ⟨[], m, faces, .nil m, h, rfl⟩
    | cons x xs ih =>
      cases h with
      | cons hx h =>
        obtain ⟨fs, m₁, gs, h₁, h₂, rfl⟩ := ih h
        exact ⟨_, m₁, gs, .cons hx h₁, h₂, (List.append_assoc ..).symm⟩
  · rintro ⟨fs, m₁, gs, h₁, h₂, rfl⟩
    exact h₁.append h₂

theorem executes_cons_iff {x : Symbol K} {xs : List (Symbol K)} {m m' : Machine τ} {faces : List (Face K)} :
    it.Executes (x :: xs) m faces m' ↔
      ∃ m₁ fs gs, it.perform x m = .ok (m₁, fs) ∧ it.Executes xs m₁ gs m' ∧ faces = fs ++ gs := by
  constructor
  · rintro (_ | ⟨hx, h⟩)
    exact ⟨_, _, _, hx, h, rfl⟩
  · rintro ⟨m₁, fs, gs, hx, h, rfl⟩
    exact .cons hx h

/-- The last symbol of a program is performed on the machine that the program before it leaves. -/
theorem executes_concat_iff {xs : List (Symbol K)} {x : Symbol K} {m m' : Machine τ} {faces : List (Face K)} :
    it.Executes (xs ++ [x]) m faces m' ↔
      ∃ fs m₁ gs, it.Executes xs m fs m₁ ∧ it.perform x m₁ = .ok (m', gs) ∧ faces = fs ++ gs := by
  rw [executes_append_iff]
  constructor
  · rintro ⟨fs, m₁, gs, h, hlast, rfl⟩
    obtain ⟨m₂, gs, _, hx, hnil, rfl⟩ := executes_cons_iff.mp hlast
    cases hnil
    exact ⟨fs, m₁, gs, h, hx, by rw [List.append_nil]⟩
  · rintro ⟨fs, m₁, gs, h, hx, rfl⟩
    exact ⟨fs, m₁, gs, h, executes_cons_iff.mpr ⟨m', gs, [], hx, .nil m', (List.append_nil gs).symm⟩, rfl⟩

/-- A program is executed to its end, or a symbol of it stops the run behind a prefix that is executed. -/
theorem executes_or_stops (it : Interpreter K) (xs : List (Symbol K)) (m : Machine τ) :
    (∃ fs m', it.Executes xs m fs m') ∨
      ∃ pre x post fs m' fault, xs = pre ++ x :: post ∧ it.Executes pre m fs m' ∧
        it.perform x m' = .error fault := by
  induction xs generalizing m with
  | nil => exact .inl ⟨[], m, .nil m⟩
  | cons x xs ih =>
    cases hx : it.perform x m with
    | error fault => exact .inr ⟨[], x, xs, [], m, fault, rfl, .nil m, hx⟩
    | ok r =>
      obtain ⟨m₁, fs⟩ := r
      rcases ih m₁ with ⟨gs, m', h⟩ | ⟨pre, y, post, gs, m', fault, rfl, h, hy⟩
      · exact .inl ⟨fs ++ gs, m', .cons hx h⟩
      · exact .inr ⟨x :: pre, y, post, fs ++ gs, m', fault, rfl, .cons hx h, hy⟩

/-! ## Reports -/

/-- What two runs in a row have counted. -/
def Report.join (r s : Report) : Report :=
  ⟨r.executed + s.executed, r.faces + s.faces, r.unresolved + s.unresolved, max r.maxDepth s.maxDepth⟩

theorem Report.zero_join (r : Report) : Report.zero.join r = r := by
  simp [Report.join, Report.zero]

theorem Report.join_assoc (r s t : Report) : (r.join s).join t = r.join (s.join t) := by
  simp [Report.join, Nat.add_assoc, Nat.max_assoc]

/-- The depth of the stack behind a symbol. -/
def depthAfter (depth : Nat) (tag : Tag) : Nat :=
  (depth + if tag = .push then 1 else 0) - if tag = .pop then 1 else 0

/-- The depth of the stack behind the deepest save of a program, or zero if nothing is saved. -/
def deepest (depth : Nat) : List (Symbol K) → Nat
  | [] => 0
  | x :: xs => max (if x.tag = .push then depth + 1 else 0) (deepest (depthAfter depth x.tag) xs)

namespace Interpreter

/-- The report of one symbol at a depth of the stack. -/
def reportOne (it : Interpreter K) (τ : Type) [TurtleLike τ K] (depth : Nat) (x : Symbol K) (faces : Nat) : Report :=
  ⟨if it.isMeaningless τ x.tag then 0 else 1, faces, if it.isMeaningless τ x.tag then 1 else 0,
    if x.tag = .push then depth + 1 else 0⟩

/-- The report of a program that is executed from a depth of the stack and draws as many faces as given. -/
def reportOf (it : Interpreter K) (τ : Type) [TurtleLike τ K] (depth : Nat) (xs : List (Symbol K)) (faces : Nat) :
    Report where
  executed := xs.countP fun x => !it.isMeaningless τ x.tag
  faces := faces
  unresolved := xs.countP fun x => it.isMeaningless τ x.tag
  maxDepth := deepest depth xs

end Interpreter

theorem reportOf_cons (depth : Nat) (x : Symbol K) (xs : List (Symbol K)) (m n : Nat) :
    it.reportOf τ depth (x :: xs) (m + n) =
      (it.reportOne τ depth x m).join (it.reportOf τ (depthAfter depth x.tag) xs n) := by
  cases h : it.isMeaningless τ x.tag <;>
    simp [Interpreter.reportOf, Interpreter.reportOne, Report.join, deepest, h, Nat.add_comm]

/-- Every symbol is executed or passed over. -/
theorem executed_add_unresolved (depth : Nat) (xs : List (Symbol K)) (faces : Nat) :
    (it.reportOf τ depth xs faces).executed + (it.reportOf τ depth xs faces).unresolved = xs.length := by
  have h := xs.length_eq_countP_add_countP fun x => it.isMeaningless τ x.tag
  simp only [Interpreter.reportOf, h, Bool.decide_eq_false, Bool.not_eq_true]
  omega

/-! ## Runs -/

theorem depthAfter_of_perform {x : Symbol K} {m m' : Machine τ} {fs : List (Face K)}
    (h : it.perform x m = .ok (m', fs)) : m'.stack.length = depthAfter m.stack.length x.tag := by
  have := stack_length_of_perform h
  rw [depthAfter]
  omega

/-- A symbol that is performed takes a run one symbol further. -/
theorem step_of_perform {x : Symbol K} {p : Progress τ K} {m' : Machine τ} {fs : List (Face K)}
    (h : it.perform x p.machine = .ok (m', fs)) :
    ∃ p', it.step x p = .ok p' ∧ p'.machine = m' ∧ p'.trace.faces.toList = p.trace.faces.toList ++ fs ∧
      p'.report = p.report.join (it.reportOne τ p.machine.stack.length x fs.length) := by
  have hd := depthAfter_of_perform h
  obtain ⟨m, report, warned, trace⟩ := p
  unfold perform at h
  cases ho : it.obey x m with
  | fault fault => rw [ho] at h; cases h
  | meaningless =>
    have hx := obey_eq_meaningless_iff.mp ho
    have hpush : x.tag ≠ .push := fun e => by rw [e] at hx; cases hx
    rw [ho] at h
    cases hs : it.strict with
    | true => simp [hs] at h
    | false =>
      simp only [hs, Bool.false_eq_true, if_false, Except.ok.injEq, Prod.mk.injEq] at h
      obtain ⟨rfl, rfl⟩ := h
      refine ⟨_, by simp only [step, ho, hs]; rfl, rfl, ?_, ?_⟩
      · simp only [Progress.passedOver]
        split <;> simp
      · simp [Progress.passedOver, Report.join, reportOne, hx, hpush]
  | done m₁ new =>
    have hx := isMeaningless_of_done ho
    rw [ho] at h
    obtain ⟨rfl, rfl⟩ := Prod.mk.inj (Except.ok.inj h)
    refine ⟨_, by simp only [step, ho]; rfl, rfl, by simp [Progress.executed], ?_⟩
    by_cases hpush : x.tag = .push
    · simp only [hpush, depthAfter] at hd
      simp [Progress.executed, Report.join, reportOne, hpush, hd, isMeaningless]
    · simp [Progress.executed, Report.join, reportOne, hx, hpush]

/-- A symbol that is not performed stops a run with its fault. -/
theorem step_of_perform_error {x : Symbol K} {p : Progress τ K} {fault : Fault}
    (h : it.perform x p.machine = .error fault) : it.step x p = .error fault := by
  unfold perform at h
  unfold step
  cases ho : it.obey x p.machine with
  | fault f => rw [ho] at h; cases h; rfl
  | meaningless =>
    rw [ho] at h
    cases hs : it.strict <;> simp_all
  | done m₁ new => rw [ho] at h; cases h

/-- **A run under way goes through what is executed**: behind the program it has the machine of the execution, its
faces, and its report. -/
theorem proceed_of_executes {xs : List (Symbol K)} {m m' : Machine τ} {fs : List (Face K)}
    (h : it.Executes xs m fs m') (ys : List (Symbol K)) (p : Progress τ K) (hp : p.machine = m) :
    ∃ p', it.proceed (xs ++ ys) p = it.proceed ys p' ∧ p'.machine = m' ∧
      p'.trace.faces.toList = p.trace.faces.toList ++ fs ∧
      p'.report = p.report.join (it.reportOf τ m.stack.length xs fs.length) := by
  induction h generalizing p with
  | nil m => exact ⟨p, rfl, hp, by simp, by simp [reportOf, deepest, Report.join]⟩
  | @cons x xs m m₁ m' fs gs hx _ ih =>
    subst hp
    obtain ⟨p₁, hs, hm, hf, hr⟩ := step_of_perform hx
    obtain ⟨p', hp', hm', hf', hr'⟩ := ih p₁ hm
    refine ⟨p', ?_, hm', by rw [hf', hf, List.append_assoc], ?_⟩
    · rw [List.cons_append, proceed, hs]
      exact hp'
    · rw [hr', hr, List.length_append, reportOf_cons, Report.join_assoc, depthAfter_of_perform hx]

/-- The run of a program that is executed to its end. -/
theorem run_of_executes {xs : List (Symbol K)} {m m' : Machine τ} {fs : List (Face K)}
    (h : it.Executes xs m fs m') :
    (it.run xs m).machine = m' ∧ (it.run xs m).trace.faces.toList = fs ∧
      (it.run xs m).result = .ok (it.reportOf τ m.stack.length xs fs.length) := by
  obtain ⟨p', hp, hm, hf, hr⟩ := proceed_of_executes h [] (.start m) rfl
  rw [List.append_nil] at hp
  rw [run, hp, proceed]
  refine ⟨hm, ?_, ?_⟩
  · simpa [Progress.finish, Progress.start] using hf
  · simp only [Progress.finish, hr]
    rw [Progress.start, Report.zero_join]

theorem draw_of_run {xs : List (Symbol K)} {turtle : τ} {report : Report}
    (h : (it.run xs ⟨turtle, []⟩).result = .ok report) :
    (it.draw xs turtle).1 =
      .ok ⟨.ofFaces (it.run xs ⟨turtle, []⟩).trace.faces, (it.run xs ⟨turtle, []⟩).machine.turtle, report⟩ := by
  simp only [draw, h]
  rfl

/-- The drawing of a program that is executed to its end. -/
theorem draw_of_executes {xs : List (Symbol K)} {turtle : τ} {m' : Machine τ} {fs : List (Face K)}
    (h : it.Executes xs ⟨turtle, []⟩ fs m') :
    (it.draw xs turtle).1 = .ok ⟨.ofFaces fs.toArray, m'.turtle, it.reportOf τ 0 xs fs.length⟩ := by
  obtain ⟨hm, hf, hr⟩ := run_of_executes h
  rw [draw_of_run hr, hm, ← hf]
  rfl

/-- The run of a program that a symbol stops. -/
theorem run_of_stops {pre : List (Symbol K)} {x : Symbol K} {m m' : Machine τ} {fs : List (Face K)} {fault : Fault}
    (h : it.Executes pre m fs m') (hx : it.perform x m' = .error fault) (post : List (Symbol K)) :
    (it.run (pre ++ x :: post) m).machine = m' ∧ (it.run (pre ++ x :: post) m).trace.faces.toList = fs ∧
      (it.run (pre ++ x :: post) m).result = .error ⟨pre.length, fault⟩ := by
  obtain ⟨p', hp, hm, hf, hr⟩ := proceed_of_executes h (x :: post) (.start m) rfl
  have hi : p'.index = pre.length := by
    rw [Progress.index, hr, Progress.start, Report.zero_join, executed_add_unresolved]
  rw [run, hp, proceed, step_of_perform_error (by rw [hm]; exact hx)]
  exact ⟨hm, by simpa [Progress.stop, Progress.start] using hf, by simp [Progress.stop, hi]⟩

/-- A run succeeds exactly when its program is executed. -/
theorem run_ok_iff {xs : List (Symbol K)} {m : Machine τ} :
    (∃ report, (it.run xs m).result = .ok report) ↔ ∃ fs m', it.Executes xs m fs m' := by
  constructor
  · rintro ⟨report, h⟩
    rcases executes_or_stops it xs m with h' | ⟨pre, x, post, fs, m', fault, rfl, h', hx⟩
    · exact h'
    · rw [(run_of_stops h' hx post).2.2] at h
      cases h
  · rintro ⟨fs, m', h⟩
    exact ⟨_, (run_of_executes h).2.2⟩

/-- A run ends where a prefix of its program is executed to, whether it succeeds or fails. -/
theorem run_executes (it : Interpreter K) (xs : List (Symbol K)) (m : Machine τ) :
    ∃ pre fs, pre <+: xs ∧ it.Executes pre m fs (it.run xs m).machine := by
  rcases executes_or_stops it xs m with ⟨fs, m', h⟩ | ⟨pre, x, post, fs, m', fault, rfl, h, hx⟩
  · exact ⟨xs, fs, List.prefix_rfl, by rw [(run_of_executes h).1]; exact h⟩
  · exact ⟨pre, fs, List.prefix_append _ _, by rw [(run_of_stops h hx post).1]; exact h⟩

end Foliage
