import Foliage.Interpreter
import Mathlib.Data.List.Basic

/-!
# One symbol

`it.perform x m` is what the symbol `x` makes of the machine `m`: the machine behind it and the faces it draws, or the
fault that stops a run there. A symbol that means nothing is performed by doing nothing, unless the interpreter is
strict.

`it.Obeys x m m' trace` lists everything that a symbol with a meaning can do without a fault, one constructor for each
way, with the trace that it leaves (`obeys_of_done`). `it.Performs x m m' faces` adds the symbols without a meaning and
keeps the faces of the trace alone (`perform_ok_iff`). In each of its cases the depth of the stack changes as the tag of
the symbol says (`stack_length_of_perform`).
-/

namespace Foliage

variable {τ K : Type} [TurtleLike τ K] {it : Interpreter K}

/-- What a symbol has every turtle do, if it is for turtles. -/
def Symbol.action? (x : Symbol K) : Option (Action K) :=
  match x.tag with
  | .forward | .trunk => some (.forward x.amount)
  | .skip => some (.skip x.amount)
  | .turn t => some (.turn t x.amount)
  | .horiz => some .horiz
  | .startPoly => some .startPoly
  | .endPoly => some .endPoly
  | .setRadius => x.amount.map .setRadius
  | _ => none

namespace Interpreter

/-- A tag means nothing to an interpreter of turtles of the kind `τ`. -/
def isMeaningless (it : Interpreter K) (τ : Type) [TurtleLike τ K] : Tag → Bool
  | .nonterminal _ => true
  | .ornament => it.ornament.isNone
  | .considerData => (TurtleLike.steer? : Option (τ → τ × Trace K)).isNone
  | .forward | .skip | .turn _ | .push | .pop | .setRadius | .startPoly | .endPoly | .horiz | .trunk => false

/-- The machine after a symbol and the faces that the symbol draws, or the fault that stops the run there. -/
def perform (it : Interpreter K) (x : Symbol K) (m : Machine τ) : Except Fault (Machine τ × List (Face K)) :=
  match it.obey x m with
  | .done m' trace => .ok (m', trace.faces.toList)
  | .meaningless => if it.strict then .error (.unresolved x.tag) else .ok (m, [])
  | .fault fault => .error fault

/-- Everything that a symbol with a meaning can do without a fault, and the trace that it leaves. -/
inductive Obeys (it : Interpreter K) (x : Symbol K) (m : Machine τ) : Machine τ → Trace K → Prop
  | act (action : Action K) : x.action? = some action →
      Obeys it x m { m with turtle := (TurtleLike.act m.turtle action).1 } (TurtleLike.act m.turtle action).2
  | stamp (s : Stamp K) (fs : List (Face K)) : x.tag = .ornament → it.ornament = some s →
      TurtleLike.stamp? m.turtle s = some fs → Obeys it x m m (.ofFaces fs)
  | steer (f : τ → τ × Trace K) : x.tag = .considerData → TurtleLike.steer? = some f →
      Obeys it x m { m with turtle := (f m.turtle).1 } (f m.turtle).2
  | push : x.tag = .push → m.stack.length < it.maxStackDepth →
      Obeys it x m { m with stack := m.turtle :: m.stack } .none
  | pop (t : τ) (rest : List τ) : x.tag = .pop → m.stack = t :: rest → Obeys it x m ⟨t, rest⟩ .none
  | idle : x.tag = .setRadius → x.amount = none → Obeys it x m m .none

/-- Everything that a symbol can do without a fault, and the faces that it draws. -/
inductive Performs (it : Interpreter K) (x : Symbol K) (m : Machine τ) : Machine τ → List (Face K) → Prop
  | act (action : Action K) : x.action? = some action →
      Performs it x m { m with turtle := (TurtleLike.act m.turtle action).1 }
        (TurtleLike.act m.turtle action).2.faces.toList
  | stamp (s : Stamp K) (fs : List (Face K)) : x.tag = .ornament → it.ornament = some s →
      TurtleLike.stamp? m.turtle s = some fs → Performs it x m m fs
  | steer (f : τ → τ × Trace K) : x.tag = .considerData → TurtleLike.steer? = some f →
      Performs it x m { m with turtle := (f m.turtle).1 } (f m.turtle).2.faces.toList
  | push : x.tag = .push → m.stack.length < it.maxStackDepth →
      Performs it x m { m with stack := m.turtle :: m.stack } []
  | pop (t : τ) (rest : List τ) : x.tag = .pop → m.stack = t :: rest → Performs it x m ⟨t, rest⟩ []
  | idle : x.tag = .setRadius → x.amount = none → Performs it x m m []
  | pass : it.isMeaningless τ x.tag = true → it.strict = false → Performs it x m m []

end Interpreter

open Interpreter

/-- Whether a symbol means something does not depend on the machine. -/
theorem obey_eq_meaningless_iff {x : Symbol K} {m : Machine τ} :
    it.obey x m = .meaningless ↔ it.isMeaningless τ x.tag = true := by
  obtain ⟨tag, amount⟩ := x
  unfold obey
  cases tag
  case ornament =>
    cases ho : it.ornament with
    | none => simp [isMeaningless, ho]
    | some s => cases hs : TurtleLike.stamp? m.turtle s <;> simp [isMeaningless, ho, hs]
  case considerData =>
    cases hs : (TurtleLike.steer? : Option (τ → τ × Trace K)) <;>
      simp [isMeaningless, TurtleLike.consider?, hs]
  case push => by_cases h : it.maxStackDepth ≤ m.stack.length <;> simp [isMeaningless, h]
  case pop => cases m.stack <;> simp [isMeaningless]
  case setRadius => cases amount <;> simp [isMeaningless, Machine.act]
  all_goals simp [isMeaningless, Machine.act]

/-- A symbol that is obeyed has a meaning. -/
theorem isMeaningless_of_done {x : Symbol K} {m m' : Machine τ} {trace : Trace K} (h : it.obey x m = .done m' trace) :
    it.isMeaningless τ x.tag = false := by
  by_contra hx
  rw [obey_eq_meaningless_iff.mpr (by simpa using hx)] at h
  cases h

/-! ## What a symbol can do -/

theorem obey_of_action {x : Symbol K} {action : Action K} (h : x.action? = some action) (m : Machine τ) :
    it.obey x m = m.act action := by
  obtain ⟨tag, amount⟩ := x
  cases tag
  case setRadius =>
    obtain ⟨radius, rfl, rfl⟩ := Option.map_eq_some_iff.mp h
    rfl
  all_goals cases h <;> rfl

theorem obeys_of_done {x : Symbol K} {m m' : Machine τ} {trace : Trace K} (h : it.obey x m = .done m' trace) :
    it.Obeys x m m' trace := by
  cases ha : x.action? with
  | some action =>
    rw [obey_of_action ha] at h
    cases h
    exact .act action ha
  | none =>
    obtain ⟨tag, amount⟩ := x
    unfold obey at h
    cases tag
    case ornament =>
      cases ho : it.ornament with
      | none => simp [ho] at h
      | some s =>
        cases hs : TurtleLike.stamp? m.turtle s with
        | none => simp [ho, hs] at h
        | some fs =>
          simp only [ho, hs, Response.done.injEq] at h
          obtain ⟨rfl, rfl⟩ := h
          exact .stamp s fs rfl ho hs
    case considerData =>
      cases hf : (TurtleLike.steer? : Option (τ → τ × Trace K)) with
      | none => simp [TurtleLike.consider?, hf] at h
      | some f =>
        simp only [TurtleLike.consider?, hf, Option.map_some, Response.done.injEq] at h
        obtain ⟨rfl, rfl⟩ := h
        exact .steer f rfl hf
    case push =>
      by_cases hd : it.maxStackDepth ≤ m.stack.length
      · simp [hd] at h
      · simp only [hd, if_false, Response.done.injEq] at h
        obtain ⟨rfl, rfl⟩ := h
        exact .push rfl (Nat.lt_of_not_le hd)
    case pop =>
      cases hs : m.stack with
      | nil => simp [hs] at h
      | cons t rest =>
        simp only [hs, Response.done.injEq] at h
        obtain ⟨rfl, rfl⟩ := h
        exact .pop t rest rfl hs
    case setRadius =>
      cases amount with
      | some radius => cases ha
      | none =>
        simp only [Response.done.injEq] at h
        obtain ⟨rfl, rfl⟩ := h
        exact .idle rfl rfl
    case nonterminal => cases h
    -- every other tag is an action
    all_goals cases ha

theorem performs_of_done {x : Symbol K} {m m' : Machine τ} {trace : Trace K} (h : it.obey x m = .done m' trace) :
    it.Performs x m m' trace.faces.toList := by
  cases obeys_of_done h with
  | act action ha => exact .act action ha
  | stamp s fs hx ho hs => exact .stamp s fs hx ho hs
  | steer f hx hf => exact .steer f hx hf
  | push hx hd => exact .push hx hd
  | pop t rest hx hs => exact .pop t rest hx hs
  | idle hx ha => exact .idle hx ha

/-- A symbol is performed exactly in the ways of `Performs`. -/
theorem perform_ok_iff {x : Symbol K} {m m' : Machine τ} {fs : List (Face K)} :
    it.perform x m = .ok (m', fs) ↔ it.Performs x m m' fs := by
  constructor
  · intro h
    unfold perform at h
    cases ho : it.obey x m with
    | fault fault => rw [ho] at h; cases h
    | meaningless =>
      rw [ho] at h
      cases hs : it.strict with
      | true => simp [hs] at h
      | false =>
        simp only [hs, Bool.false_eq_true, if_false, Except.ok.injEq, Prod.mk.injEq] at h
        obtain ⟨rfl, rfl⟩ := h
        exact .pass (obey_eq_meaningless_iff.mp ho) hs
    | done m₁ trace =>
      rw [ho] at h
      obtain ⟨rfl, rfl⟩ := Prod.mk.inj (Except.ok.inj h)
      exact performs_of_done ho
  · intro h
    unfold perform
    cases h with
    | act action ha => rw [obey_of_action ha]; rfl
    | stamp s fs hx ho hs => simp [obey, hx, ho, hs, Trace.faces_ofFaces]
    | steer f hx hf => simp [obey, hx, TurtleLike.consider?, hf]
    | push hx hd => simp [obey, hx, Nat.not_le_of_lt hd]
    | pop t rest hx hm => simp [obey, hx, hm]
    | idle hx ha => simp [obey, hx, ha]
    | pass hx hs => simp [obey_eq_meaningless_iff.mpr hx, hs]

/-! ## The depth of the stack -/

/-- A symbol for turtles is no bracket. -/
theorem not_bracket_of_action {x : Symbol K} {action : Action K} (h : x.action? = some action) :
    x.tag ≠ .push ∧ x.tag ≠ .pop := by
  obtain ⟨tag, amount⟩ := x
  constructor <;> rintro rfl <;> cases h

/-- A bracket always means something. -/
theorem not_bracket_of_isMeaningless {tag : Tag} (h : it.isMeaningless τ tag = true) : tag ≠ .push ∧ tag ≠ .pop := by
  constructor <;> rintro rfl <;> cases h

/-- A symbol that is performed changes the depth of the stack as its tag says. -/
theorem stack_length_of_perform {x : Symbol K} {m m' : Machine τ} {fs : List (Face K)}
    (h : it.perform x m = .ok (m', fs)) :
    (m'.stack.length + if x.tag = .pop then 1 else 0) = m.stack.length + if x.tag = .push then 1 else 0 := by
  cases perform_ok_iff.mp h with
  | act action ha =>
    obtain ⟨hpush, hpop⟩ := not_bracket_of_action ha
    rw [if_neg hpush, if_neg hpop]
  | stamp s fs hx => rw [hx]; rfl
  | steer f hx => rw [hx]; rfl
  | push hx => rw [hx]; rfl
  | pop t rest hx hm => rw [hx, hm]; rfl
  | idle hx => rw [hx]; rfl
  | pass hx =>
    obtain ⟨hpush, hpop⟩ := not_bracket_of_isMeaningless hx
    rw [if_neg hpush, if_neg hpop]

end Foliage
