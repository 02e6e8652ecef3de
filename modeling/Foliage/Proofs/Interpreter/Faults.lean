import Foliage.Proofs.Brackets
import Foliage.Proofs.Interpreter.Execution
import Mathlib.Data.List.Induction

/-!
# Faults

Which symbol stops a run can be read off the program, the depth of the stack it starts with and the settings of the
interpreter: `it.faultAt? τ start xs i` is the fault of the symbol at `i`, when the stack has the depth that the
brackets before it give (`depthAt`). A run stops at the first symbol that has a fault, with this fault, and leaves
what the prefix before it leaves; it gets through when there is none (`run_outcome`). The only other end of a run is
an ornament that cannot give its faces.
-/

namespace Foliage

variable {τ K : Type} [TurtleLike τ K] {it : Interpreter K}

/-! ## The fault of a symbol -/

namespace Interpreter

/-- The fault of a tag at a depth of the stack: a save at the limit, a restore of nothing, or, when the interpreter is
strict, a tag that means nothing. -/
def faultOf? (it : Interpreter K) (τ : Type) [TurtleLike τ K] (depth : Int) (tag : Tag) : Option Fault :=
  if tag = .push ∧ it.maxStackDepth ≤ depth then some (.stackOverflow it.maxStackDepth)
  else if tag = .pop ∧ depth = 0 then some .stackUnderflow
  else if it.strict ∧ it.isMeaningless τ tag then some (.unresolved tag)
  else none

/-- The fault of the symbol at `i` in a program that begins with a stack of depth `start`. -/
def faultAt? (it : Interpreter K) (τ : Type) [TurtleLike τ K] (start : Nat) (xs : List (Symbol K)) (i : Nat) :
    Option Fault :=
  xs[i]?.bind fun x => it.faultOf? τ (depthAt start xs i) x.tag

end Interpreter

/-- A run that an ornament ends which cannot give its faces. -/
def Run.Panicked (r : Run τ K) : Prop := ∃ i, r.result = .error ⟨i, .brokenOrnament⟩

open Interpreter

/-- A symbol that has a fault stops a run with it. -/
theorem perform_of_faultOf? {x : Symbol K} {m : Machine τ} {fault : Fault}
    (h : it.faultOf? τ m.stack.length x.tag = some fault) : it.perform x m = .error fault := by
  unfold faultOf? at h
  split at h
  · rename_i hx
    obtain ⟨hx, hd⟩ := hx
    obtain rfl := Option.some.inj h
    simp [perform, obey, hx, Int.ofNat_le.mp hd]
  · split at h
    · rename_i hx
      obtain ⟨hx, hd⟩ := hx
      obtain rfl := Option.some.inj h
      have hs : m.stack = [] := List.eq_nil_of_length_eq_zero (Int.ofNat_eq_zero.mp hd)
      simp [perform, obey, hx, hs]
    · split at h
      · rename_i hx
        obtain rfl := Option.some.inj h
        simp [perform, obey_eq_meaningless_iff.mpr hx.2, hx.1]
      · cases h

/-- A symbol that stops a run has the fault it stops it with, unless an ornament cannot give its faces. -/
theorem faultOf?_of_perform {x : Symbol K} {m : Machine τ} {fault : Fault} (h : it.perform x m = .error fault) :
    it.faultOf? τ m.stack.length x.tag = some fault ∨
      fault = .brokenOrnament ∧ it.faultOf? τ m.stack.length x.tag = none ∧
        ∃ s, it.ornament = some s ∧ TurtleLike.stamp? m.turtle s = none := by
  unfold perform at h
  cases ho : it.obey x m with
  | done m₁ new => rw [ho] at h; cases h
  | meaningless =>
    have hx := obey_eq_meaningless_iff.mp ho
    rw [ho] at h
    cases hs : it.strict with
    | false => simp [hs] at h
    | true =>
      simp only [hs, if_true, Except.error.injEq] at h
      left
      cases ht : x.tag <;> simp_all [faultOf?, isMeaningless]
  | fault f =>
    rw [ho] at h
    cases h
    obtain ⟨tag, amount⟩ := x
    unfold obey at ho
    cases tag
    case push =>
      left
      by_cases hd : it.maxStackDepth ≤ m.stack.length
      · simp only [hd, if_true, Response.fault.injEq] at ho
        simp [faultOf?, hd, ho]
      · simp [hd] at ho
    case pop =>
      left
      cases hs : m.stack with
      | nil =>
        simp only [hs, Response.fault.injEq] at ho
        simp [faultOf?, ho]
      | cons t rest => simp [hs] at ho
    case ornament =>
      right
      cases hs : it.ornament with
      | none => simp [hs] at ho
      | some s =>
        cases hf : TurtleLike.stamp? m.turtle s with
        | some fs => simp [hs, hf] at ho
        | none =>
          simp only [hs, hf, Response.fault.injEq] at ho
          exact ⟨ho.symm, by simp [faultOf?, isMeaningless, hs], s, rfl, hf⟩
    case considerData => cases hf : (TurtleLike.steer? : Option (τ → τ × Trace K)) <;>
      simp [TurtleLike.consider?, hf] at ho
    case setRadius => cases amount <;> cases ho
    all_goals cases ho

/-- A symbol stops a run with a broken ornament exactly when it stamps one that cannot give its faces. -/
theorem perform_eq_brokenOrnament_iff {x : Symbol K} {m : Machine τ} :
    it.perform x m = .error .brokenOrnament ↔
      x.tag = .ornament ∧ ∃ s, it.ornament = some s ∧ TurtleLike.stamp? m.turtle s = none := by
  constructor
  · intro h
    obtain ⟨tag, amount⟩ := x
    unfold perform obey at h
    cases tag
    case ornament =>
      cases ho : it.ornament with
      | none => cases hl : it.strict <;> simp [ho, hl] at h
      | some s =>
        cases hs : TurtleLike.stamp? m.turtle s with
        | none => exact ⟨rfl, s, rfl, hs⟩
        | some fs => simp [ho, hs] at h
    case setRadius => cases amount <;> cases h
    case considerData =>
      cases hc : TurtleLike.consider? m.turtle <;> cases hl : it.strict <;> simp [hc, hl] at h
    case push => by_cases hd : it.maxStackDepth ≤ m.stack.length <;> simp [hd] at h
    case pop => cases hstack : m.stack <;> simp [hstack] at h
    case nonterminal => cases hl : it.strict <;> simp [hl] at h
    all_goals cases h
  · rintro ⟨hx, s, ho, hs⟩
    simp [perform, obey, hx, ho, hs]

/-- A list splits at each of its elements. -/
theorem exists_split {α : Type} {xs : List α} {i : Nat} {x : α} (h : xs[i]? = some x) :
    ∃ pre y post, xs = pre ++ y :: post ∧ pre.length = i ∧ y = x := by
  obtain ⟨hi, rfl⟩ := List.getElem?_eq_some_iff.mp h
  exact ⟨xs.take i, xs[i], xs.drop (i + 1), by simp, by simp; omega, rfl⟩

/-! ## The depth of the stack -/

/-- An execution changes the depth of the stack by the brackets of the program. -/
theorem stack_length_of_executes {xs : List (Symbol K)} {m m' : Machine τ} {fs : List (Face K)}
    (h : it.Executes xs m fs m') : m'.stack.length + pops xs = m.stack.length + pushes xs := by
  induction h with
  | nil m => rfl
  | cons hx _ ih =>
    have := stack_length_of_perform hx
    rw [pops_cons, pushes_cons]
    omega

theorem depthAt_of_executes {pre : List (Symbol K)} {m m' : Machine τ} {fs : List (Face K)}
    (h : it.Executes pre m fs m') (ys : List (Symbol K)) :
    depthAt m.stack.length (pre ++ ys) pre.length = m'.stack.length := by
  have := stack_length_of_executes h
  rw [depthAt, List.take_left]
  omega

/-- The fault of a symbol behind a prefix that is executed is its fault at the depth of the stack there. -/
theorem faultAt?_of_executes {pre post : List (Symbol K)} {x : Symbol K} {m m' : Machine τ} {fs : List (Face K)}
    (h : it.Executes pre m fs m') :
    it.faultAt? τ m.stack.length (pre ++ x :: post) pre.length = it.faultOf? τ m'.stack.length x.tag := by
  rw [faultAt?, depthAt_of_executes h]
  simp

/-- No symbol of a prefix that is executed has a fault. -/
theorem faultAt?_eq_none_of_executes {pre : List (Symbol K)} {m m' : Machine τ} {fs : List (Face K)}
    (h : it.Executes pre m fs m') (post : List (Symbol K)) {j : Nat} (hj : j < pre.length) :
    it.faultAt? τ m.stack.length (pre ++ post) j = none := by
  obtain ⟨pre₁, y, pre₂, rfl, rfl, -⟩ := exists_split (List.getElem?_eq_getElem hj)
  obtain ⟨fs₁, m₁, gs, h₁, h₂, rfl⟩ := executes_append_iff.mp h
  obtain ⟨m₂, fs₂, gs₂, hy, -, -⟩ := executes_cons_iff.mp h₂
  rw [List.append_assoc, List.cons_append, faultAt?_of_executes h₁]
  cases hf : it.faultOf? τ m₁.stack.length y.tag with
  | none => rfl
  | some fault => rw [perform_of_faultOf? hf] at hy; cases hy

theorem faultAt?_eq_none_of_le {start : Nat} {xs : List (Symbol K)} {i : Nat} (hi : xs.length ≤ i) :
    it.faultAt? τ start xs i = none := by
  simp [faultAt?, hi]

/-! ## The deepest save -/

theorem deepest_append {pre : List (Symbol K)} {m m' : Machine τ} {fs : List (Face K)} (h : it.Executes pre m fs m')
    (ys : List (Symbol K)) :
    deepest m.stack.length (pre ++ ys) = max (deepest m.stack.length pre) (deepest m'.stack.length ys) := by
  induction h with
  | nil m => simp [deepest]
  | cons hx _ ih =>
    rw [List.cons_append, deepest, deepest, ← depthAfter_of_perform hx, ih, Nat.max_assoc]

/-- No save of an executed program goes deeper than the deepest one. -/
theorem depthAt_le_deepest {xs : List (Symbol K)} {m m' : Machine τ} {fs : List (Face K)} (h : it.Executes xs m fs m')
    {i : Nat} {x : Symbol K} (hi : xs[i]? = some x) (hx : x.tag = .push) :
    depthAt m.stack.length xs i + 1 ≤ deepest m.stack.length xs := by
  obtain ⟨pre, y, post, rfl, rfl, rfl⟩ := exists_split hi
  obtain ⟨fs₁, m₁, gs, h₁, -, -⟩ := executes_append_iff.mp h
  rw [depthAt_of_executes h₁, deepest_append h₁, deepest, if_pos hx]
  omega

/-- The deepest save of an executed program is one of its saves. -/
theorem deepest_eq_depthAt {xs : List (Symbol K)} {m m' : Machine τ} {fs : List (Face K)} (h : it.Executes xs m fs m') :
    deepest m.stack.length xs = 0 ∨ ∃ i x, xs[i]? = some x ∧ x.tag = .push ∧
      (deepest m.stack.length xs : Int) = depthAt m.stack.length xs i + 1 := by
  induction xs using List.reverseRecOn generalizing m' fs with
  | nil => exact .inl rfl
  | append_singleton xs x ih =>
    obtain ⟨fs₁, m₁, gs, h₁, -, -⟩ := executes_append_iff.mp h
    have hd : deepest m.stack.length (xs ++ [x]) =
        max (deepest m.stack.length xs) (if x.tag = .push then m₁.stack.length + 1 else 0) := by
      rw [deepest_append h₁, deepest, deepest, Nat.max_zero]
    by_cases hx : x.tag = .push ∧ deepest m.stack.length xs ≤ m₁.stack.length
    · refine .inr ⟨xs.length, x, by simp, hx.1, ?_⟩
      rw [hd, if_pos hx.1, depthAt_of_executes h₁]
      omega
    · have he : deepest m.stack.length (xs ++ [x]) = deepest m.stack.length xs := by
        rw [hd]
        by_cases hpush : x.tag = .push
        · have hgt : ¬ deepest m.stack.length xs ≤ m₁.stack.length := fun hle => hx ⟨hpush, hle⟩
          rw [if_pos hpush]
          omega
        · rw [if_neg hpush, Nat.max_zero]
      rw [he]
      rcases ih h₁ with h₀ | ⟨i, y, hi, hy, hm⟩
      · exact .inl h₀
      · obtain ⟨hlt, -⟩ := List.getElem?_eq_some_iff.mp hi
        refine .inr ⟨i, y, by rw [List.getElem?_append_left hlt, hi], hy, ?_⟩
        rw [hm, depthAt_append _ (Nat.le_of_lt hlt)]

/-- A stack becomes no deeper than it was at first or behind the deepest save. -/
theorem stack_length_le_deepest {xs : List (Symbol K)} {m m' : Machine τ} {fs : List (Face K)}
    (h : it.Executes xs m fs m') : m'.stack.length ≤ max m.stack.length (deepest m.stack.length xs) := by
  induction h with
  | nil m => exact Nat.le_max_left ..
  | @cons x xs m m₁ m' fs gs hx _ ih =>
    have hdepth := depthAfter_of_perform hx
    rw [deepest, ← hdepth]
    rw [depthAfter] at hdepth
    by_cases hpush : x.tag = .push
    · rw [if_pos hpush] at hdepth ⊢
      omega
    · rw [if_neg hpush] at hdepth ⊢
      omega

/-- The deepest save of an executed program that never has more than `k` brackets open, and has as many somewhere. -/
theorem deepest_of_closes {k : Nat} {xs : List (Symbol K)} {m m' : Machine τ} {fs : List (Face K)}
    (h : it.Executes xs m fs m') (hempty : m.stack = []) (hcloses : Closes k 0 xs) {i : Nat}
    (hi : pushes (xs.take i) = pops (xs.take i) + k) : deepest 0 xs = k := by
  have hlength : m.stack.length = 0 := congrArg List.length hempty
  refine Nat.le_antisymm ?_ ?_
  · rcases deepest_eq_depthAt h with hzero | ⟨j, x, hj, hx, hdeepest⟩
    · rw [hlength] at hzero
      omega
    · have hnext := depthAt_succ 0 hj
      have hbound := (closes_zero_iff.mp hcloses).2 (j + 1)
      rw [if_neg (by simp [hx]), if_pos hx] at hnext
      rw [hlength] at hdeepest
      omega
  -- where `k` brackets are open the stack is `k` deep, so a save before has made it so
  · rw [← List.take_append_drop i xs] at h
    obtain ⟨fs₁, m₁, gs, h₁, -, -⟩ := executes_append_iff.mp h
    have hthere := stack_length_le_deepest h₁
    have hopen := stack_length_of_executes h₁
    have hwhole := deepest_append h₁ (xs.drop i)
    rw [List.take_append_drop, hlength] at hwhole
    rw [hlength] at hthere hopen
    omega

/-! ## The outcome of a run -/

/-- Where a run fails, why, and what it leaves. -/
theorem run_error {xs : List (Symbol K)} {m : Machine τ} {i : Nat} {fault : Fault}
    (hr : (it.run xs m).result = .error ⟨i, fault⟩) :
    (∀ j < i, it.faultAt? τ m.stack.length xs j = none) ∧
    (it.faultAt? τ m.stack.length xs i = some fault ∨
      fault = .brokenOrnament ∧ it.faultAt? τ m.stack.length xs i = none ∧
        ∃ s, it.ornament = some s ∧ TurtleLike.stamp? (it.run xs m).machine.turtle s = none) ∧
    (∃ report, (it.run (xs.take i) m).result = .ok report) ∧
    (it.run xs m).machine = (it.run (xs.take i) m).machine ∧
    (it.run xs m).trace.faces = (it.run (xs.take i) m).trace.faces := by
  rcases executes_or_stops it xs m with ⟨fs, m', h⟩ | ⟨pre, x, post, fs, m', fault', rfl, h, hx⟩
  · rw [(run_of_executes h).2.2] at hr
    cases hr
  · obtain ⟨hm, hf, he⟩ := run_of_stops h hx post
    obtain ⟨hm', hf', he'⟩ := run_of_executes h
    rw [he] at hr
    cases hr
    rw [List.take_left, hm, hm', faultAt?_of_executes h]
    refine ⟨fun j hj => faultAt?_eq_none_of_executes h _ hj, faultOf?_of_perform hx, ⟨_, he'⟩, rfl, ?_⟩
    exact Array.toList_inj.mp (hf.trans hf'.symm)

/-- What a run that succeeds has counted. -/
theorem run_report {xs : List (Symbol K)} {m : Machine τ} {report : Report}
    (hr : (it.run xs m).result = .ok report) :
    report.executed + report.unresolved = xs.length ∧
    report.unresolved = xs.countP (fun x => it.isMeaningless τ x.tag) ∧
    report.faces = (it.run xs m).trace.faces.size ∧
    (∀ i x, xs[i]? = some x → x.tag = .push → depthAt m.stack.length xs i + 1 ≤ report.maxDepth) ∧
    (report.maxDepth = 0 ∨ ∃ i x, xs[i]? = some x ∧ x.tag = .push ∧
      (report.maxDepth : Int) = depthAt m.stack.length xs i + 1) := by
  obtain ⟨fs, m', h⟩ := run_ok_iff.mp ⟨report, hr⟩
  obtain ⟨-, hf, he⟩ := run_of_executes h
  rw [he] at hr
  cases hr
  exact ⟨executed_add_unresolved _ _ _, rfl, by rw [← Array.length_toList, hf]; rfl,
    fun i x hi hx => depthAt_le_deepest h hi hx, deepest_eq_depthAt h⟩

/-- A run fails exactly when some symbol has a fault, unless an ornament ends it. -/
theorem run_error_iff (it : Interpreter K) (xs : List (Symbol K)) (m : Machine τ) :
    (it.run xs m).Panicked ∨
      ((∃ e, (it.run xs m).result = .error e) ↔ ∃ i fault, it.faultAt? τ m.stack.length xs i = some fault) := by
  cases hr : (it.run xs m).result with
  | ok report =>
    obtain ⟨fs, m', h⟩ := run_ok_iff.mp ⟨report, hr⟩
    have hnone : ∀ i, it.faultAt? τ m.stack.length xs i = none := by
      intro i
      rcases Nat.lt_or_ge i xs.length with hi | hi
      · simpa using faultAt?_eq_none_of_executes h [] hi
      · exact faultAt?_eq_none_of_le hi
    simp [hnone]
  | error e =>
    obtain ⟨i, fault⟩ := e
    obtain ⟨-, hf | ⟨rfl, -, -⟩, -⟩ := run_error hr
    · exact .inr ⟨fun _ => ⟨i, fault, hf⟩, fun _ => ⟨_, rfl⟩⟩
    · exact .inl ⟨i, hr⟩

/-- **The outcome of a run.** Unless an ornament ends it, a run fails exactly when some symbol has a fault. A run that
fails names a symbol that has the fault and is the first with one, and leaves the machine and the faces of the prefix
before it, whose run succeeds; only an ornament that cannot give its faces stops a run without a fault. A run that
succeeds has executed or passed over every symbol, passed over exactly the meaningless ones, counted the faces it drew,
and seen the stack as deep as behind its deepest save. -/
theorem run_outcome (it : Interpreter K) (xs : List (Symbol K)) (m : Machine τ) :
    ((it.run xs m).Panicked ∨
      ((∃ e, (it.run xs m).result = .error e) ↔ ∃ i fault, it.faultAt? τ m.stack.length xs i = some fault)) ∧
    (∀ i fault, (it.run xs m).result = .error ⟨i, fault⟩ →
      (∀ j < i, it.faultAt? τ m.stack.length xs j = none) ∧
      (it.faultAt? τ m.stack.length xs i = some fault ∨
        fault = .brokenOrnament ∧ it.faultAt? τ m.stack.length xs i = none ∧
          ∃ s, it.ornament = some s ∧ TurtleLike.stamp? (it.run xs m).machine.turtle s = none) ∧
      (∃ report, (it.run (xs.take i) m).result = .ok report) ∧
      (it.run xs m).machine = (it.run (xs.take i) m).machine ∧
      (it.run xs m).trace.faces = (it.run (xs.take i) m).trace.faces) ∧
    (∀ report, (it.run xs m).result = .ok report →
      report.executed + report.unresolved = xs.length ∧
      report.unresolved = xs.countP (fun x => it.isMeaningless τ x.tag) ∧
      report.faces = (it.run xs m).trace.faces.size ∧
      (∀ i x, xs[i]? = some x → x.tag = .push → depthAt m.stack.length xs i + 1 ≤ report.maxDepth) ∧
      (report.maxDepth = 0 ∨ ∃ i x, xs[i]? = some x ∧ x.tag = .push ∧
        (report.maxDepth : Int) = depthAt m.stack.length xs i + 1)) := by
  exact ⟨run_error_iff it xs m, fun i fault hr => run_error hr, fun report hr => run_report hr⟩

end Foliage
