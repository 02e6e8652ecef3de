import Foliage.Proofs.Interpreter.Execution

/-!
# Events of a run

Beside its own bookkeeping (symbols passed over, and the end of a program) a run reports what its symbols have the
turtle report, and nothing else: every other event of a run is one of those that some symbol brings about on the machine
that it finds (`mem_events_run`). A single turtle has one thing to report, an outline that is closed with too few points
(`mem_eventsOf_turtle`).
-/

namespace Foliage

variable {τ K : Type}

/-- The event is about the run itself: a symbol that it passed over, or its end. -/
def Event.isBookkeeping : Event K → Bool
  | .unresolved .. | .interpreted .. => true
  | _ => false

section Runs

variable [TurtleLike τ K] {it : Interpreter K} {e : Event K}

/-- What a symbol has the turtle of a machine report. -/
def Interpreter.eventsOf (it : Interpreter K) (x : Symbol K) (m : Machine τ) : List (Event K) :=
  match it.obey x m with
  | .done _ trace => trace.events.toList
  | .meaningless | .fault _ => []

open Interpreter

theorem mem_events_of_step {x : Symbol K} {p p' : Progress τ K} (h : it.step x p = .ok p')
    (he : e ∈ p'.trace.events) : e ∈ p.trace.events ∨ e ∈ it.eventsOf x p.machine ∨ e.isBookkeeping = true := by
  obtain ⟨m, report, warned, trace⟩ := p
  unfold step at h
  unfold eventsOf
  cases ho : it.obey x m with
  | fault fault => simp [ho] at h
  | meaningless =>
    cases hs : it.strict with
    | true => simp [ho, hs] at h
    | false =>
      simp only [ho, hs, Bool.false_eq_true, if_false, Except.ok.injEq] at h
      subst h
      simp only [Progress.passedOver] at he
      split at he
      · exact .inl he
      · rw [Trace.events_append, Array.mem_append] at he
        rcases he with he | he
        · exact .inl he
        · obtain rfl := Array.mem_singleton.mp he
          exact .inr (.inr rfl)
  | done m₁ new =>
    simp only [ho, Except.ok.injEq] at h
    subst h
    simp only [Progress.executed, Trace.events_append, Array.mem_append] at he
    exact he.imp_right fun hnew => .inl (Array.mem_toList_iff.mpr hnew)

theorem perform_of_step {x : Symbol K} {p p' : Progress τ K} (h : it.step x p = .ok p') :
    ∃ fs, it.perform x p.machine = .ok (p'.machine, fs) := by
  cases hx : it.perform x p.machine with
  | error fault =>
    rw [step_of_perform_error hx] at h
    cases h
  | ok result =>
    obtain ⟨p₁, hp₁, hmachine, -⟩ := step_of_perform hx
    obtain rfl := Except.ok.inj (h.symm.trans hp₁)
    exact ⟨result.2, by rw [hmachine]⟩

/-- What a run under way reports from some symbol on. -/
theorem mem_events_of_proceed {xs : List (Symbol K)} {p : Progress τ K} (h : e ∈ (it.proceed xs p).trace.events) :
    e ∈ p.trace.events ∨
      (∃ pre x post fs m', xs = pre ++ x :: post ∧ it.Executes pre p.machine fs m' ∧ e ∈ it.eventsOf x m') ∨
      e.isBookkeeping = true := by
  induction xs generalizing p with
  | nil =>
    simp only [proceed, Progress.finish, Trace.events_append, Array.mem_append] at h
    rcases h with h | h
    · exact .inl h
    · obtain rfl := Array.mem_singleton.mp h
      exact .inr (.inr rfl)
  | cons x xs ih =>
    rw [proceed] at h
    cases hs : it.step x p with
    | error fault =>
      rw [hs] at h
      exact .inl h
    | ok p₁ =>
      rw [hs] at h
      obtain ⟨fs₁, hx⟩ := perform_of_step hs
      rcases ih h with hbefore | ⟨pre, y, post, fs, m', rfl, hpre, hy⟩ | hbook
      · rcases mem_events_of_step hs hbefore with hold | hnew | hbook
        · exact .inl hold
        · exact .inr (.inl ⟨[], x, xs, [], p.machine, rfl, .nil _, hnew⟩)
        · exact .inr (.inr hbook)
      · exact .inr (.inl ⟨x :: pre, y, post, _, m', rfl, .cons hx hpre, hy⟩)
      · exact .inr (.inr hbook)

/-- **Where events come from.** What a run reports, but for its bookkeeping, some symbol of its program has brought
about on the machine that the program before it leaves. -/
theorem mem_events_run {xs : List (Symbol K)} {m : Machine τ} (h : e ∈ (it.run xs m).trace.events)
    (hbook : e.isBookkeeping = false) :
    ∃ pre x post fs m', xs = pre ++ x :: post ∧ it.Executes pre m fs m' ∧ e ∈ it.eventsOf x m' := by
  rcases mem_events_of_proceed h with hstart | hsymbol | hbook'
  · simp [Progress.start, Trace.none] at hstart
  · exact hsymbol
  · rw [hbook] at hbook'
    cases hbook'

end Runs

/-- A single turtle reports that an outline is closed with fewer points than a polygon has, and nothing else. -/
theorem mem_eventsOf_turtle [Scalar K] {it : Interpreter K} {x : Symbol K} {m : Machine (Turtle K)} {e : Event K}
    (h : e ∈ it.eventsOf x m) :
    x.tag = .endPoly ∧ m.turtle.outline.length < 3 ∧ e = .openPolygon m.turtle.outline.length := by
  obtain ⟨tag, amount⟩ := x
  unfold Interpreter.eventsOf Interpreter.obey at h
  cases tag
  case endPoly =>
    have h : e ∈ m.turtle.closeOutline.2.events.toList := h
    rw [Turtle.closeOutline] at h
    split at h
    · cases h
    · rename_i hshort
      exact ⟨rfl, Nat.lt_of_not_le hshort, List.mem_singleton.mp h⟩
  case ornament =>
    cases ho : it.ornament with
    | none => simp [ho] at h
    | some s => cases hs : TurtleLike.stamp? m.turtle s <;> simp [ho, hs, Trace.ofFaces] at h
  case push => by_cases hd : it.maxStackDepth ≤ m.stack.length <;> simp [hd, Trace.none] at h
  case pop => cases hs : m.stack <;> simp [hs, Trace.none] at h
  case setRadius => cases amount <;> cases h
  all_goals cases h

end Foliage
