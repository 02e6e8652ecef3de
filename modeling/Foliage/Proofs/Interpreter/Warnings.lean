import Foliage.Proofs.Interpreter.Events
import Foliage.Proofs.Interpreter.Faults
import Foliage.Proofs.Interpreter.Invariant
import Foliage.Proofs.Population.Steering
import Mathlib.Data.List.Nodup

/-!
# Warnings about symbols that are passed over

A run warns of a tag that means nothing when it passes over the first symbol with it, and not again. `NamesFirsts` says
this of a list of warnings and a program: each tag of the program that is passed over is named once, with its first
place, and the places increase. A run under way keeps it for the symbols behind it (`Progress.Tells.step`), whatever
brackets restore in between, for the tags that were reported are no part of the machine. So it holds of the symbols that
a run gets through, whether all or those before a fault, and for each run anew (`warns_once`).
-/

namespace Foliage

variable {τ K : Type}

/-! ## What is reported as passed over -/

/-- The tag and the place of a symbol that an event reports as passed over. -/
def Event.skipped? : Event K → Option (Tag × Nat)
  | .unresolved tag index => some (tag, index)
  | _ => none

/-- The tags and places of the symbols that are reported as passed over, in order. -/
def Trace.skipped (t : Trace K) : List (Tag × Nat) := t.events.toList.filterMap Event.skipped?

/-- The words with which a run warns of a symbol that it passes over. -/
def skipWords : String := "skipping unresolved "

/-- The warning about a tag that is passed over at a place. -/
def skipWarning (w : Tag × Nat) : String := skipWords ++ w.1.name ++ " at index " ++ toString w.2

/-- An event is a warning that is worded like those about symbols that are passed over. -/
def Event.warnsOfSkip [Numeral K] (e : Event K) : Bool :=
  decide (e.level = .warn) && skipWords.toList.isPrefixOf e.message.toList

/-- The lines of a log that warn of symbols that are passed over. -/
def Trace.skipWarnings [Numeral K] (t : Trace K) : List String :=
  (t.events.toList.filter Event.warnsOfSkip).map Event.message

@[simp] theorem skipped_append (s t : Trace K) : (s ++ t).skipped = s.skipped ++ t.skipped := by
  simp [Trace.skipped]

theorem skipped_gather {α : Type} (results : List (α × Trace K)) :
    (Population.gather results).skipped = results.flatMap fun r => r.2.skipped :=
  gather_eq_flatMap Trace.skipped rfl skipped_append results

theorem message_of_skipped? [Numeral K] {e : Event K} {w : Tag × Nat} (h : e.skipped? = some w) :
    e.message = skipWarning w := by
  cases e with
  | unresolved tag index =>
    obtain rfl := Option.some.inj h
    rfl
  | _ => cases h

/-- No other event is worded like these. -/
theorem warnsOfSkip_eq [Numeral K] (e : Event K) : e.warnsOfSkip = e.skipped?.isSome := by
  cases e with
  | unresolved tag index =>
    have hmessage : (Event.unresolved tag index : Event K).message = skipWarning (tag, index) := message_of_skipped? rfl
    have hprefix : skipWords.toList <+: (skipWarning (tag, index)).toList := by
      simp only [skipWarning, String.toList_append, List.append_assoc]
      exact List.prefix_append _ _
    rw [Event.warnsOfSkip, hmessage, List.isPrefixOf_iff_prefix.mpr hprefix]
    rfl
  | openPolygon points =>
    have hmessage : (Event.openPolygon points : Event K).message =
        "polygon closed with " ++ toString points ++ " point(s); at least 3 are needed, face skipped" := rfl
    simp [Event.warnsOfSkip, hmessage, Event.skipped?, skipWords, List.isPrefixOf]
  | crowdedAngle attempts angle =>
    have hmessage : (Event.crowdedAngle attempts angle : Event K).message =
        "no free leaf angle after " ++ toString attempts ++ " attempts; accepting " ++ Numeral.text angle := rfl
    simp [Event.warnsOfSkip, hmessage, Event.skipped?, skipWords, List.isPrefixOf]
  | _ => rfl

theorem skipWarnings_eq [Numeral K] (t : Trace K) : t.skipWarnings = t.skipped.map skipWarning := by
  unfold Trace.skipWarnings Trace.skipped
  induction t.events.toList with
  | nil => rfl
  | cons e es ih =>
    cases hw : e.skipped? with
    | none =>
      rw [List.filterMap_cons_none hw, List.filter_cons_of_neg (by simp [warnsOfSkip_eq, hw]), ih]
    | some w =>
      rw [List.filterMap_cons_some hw, List.filter_cons_of_pos (by simp [warnsOfSkip_eq, hw]), List.map_cons,
        List.map_cons, ih, message_of_skipped? hw]

/-! ## First places -/

/-- A list of warnings names every tag of a program that is passed over once, with its first place in the program, and
in the order of these places. -/
structure NamesFirsts (passed : Tag → Bool) (xs : List (Symbol K)) (warnings : List (Tag × Nat)) : Prop where
  mem_iff : ∀ tag i, (tag, i) ∈ warnings ↔
    passed tag = true ∧ tag ∈ xs.map Symbol.tag ∧ i = (xs.map Symbol.tag).idxOf tag
  once : (warnings.map Prod.fst).Nodup
  increasing : warnings.Pairwise fun v w => v.2 < w.2

variable {passed : Tag → Bool} {xs : List (Symbol K)} {x : Symbol K} {warnings : List (Tag × Nat)}

theorem NamesFirsts.nil : NamesFirsts passed ([] : List (Symbol K)) [] :=
  ⟨by simp, List.nodup_nil, .nil⟩

/-- The tags that are named are those of the program that are passed over. -/
theorem NamesFirsts.mem_tags_iff (h : NamesFirsts passed xs warnings) (tag : Tag) :
    tag ∈ warnings.map Prod.fst ↔ passed tag = true ∧ tag ∈ xs.map Symbol.tag := by
  constructor
  · intro hmem
    obtain ⟨⟨tag, i⟩, hw, rfl⟩ := List.mem_map.mp hmem
    obtain ⟨hpassed, htag, -⟩ := (h.mem_iff tag i).mp hw
    exact ⟨hpassed, htag⟩
  · rintro ⟨hpassed, htag⟩
    exact List.mem_map.mpr ⟨_, (h.mem_iff tag _).mpr ⟨hpassed, htag, rfl⟩, rfl⟩

/-- A symbol that is not passed over, or has a tag that was there before, leaves the warnings as they are. -/
theorem NamesFirsts.concat_old (h : NamesFirsts passed xs warnings)
    (hx : passed x.tag = false ∨ x.tag ∈ xs.map Symbol.tag) : NamesFirsts passed (xs ++ [x]) warnings where
  mem_iff tag i := by
    rw [h.mem_iff, List.map_append, List.map_singleton, List.idxOf_append]
    by_cases hmem : tag ∈ xs.map Symbol.tag
    · simp [hmem]
    · have hnot : ¬ (passed tag = true ∧ tag = x.tag) := by
        rintro ⟨hpassed, rfl⟩
        rcases hx with hx | hx
        · rw [hx] at hpassed
          cases hpassed
        · exact hmem hx
      simp only [hmem, List.mem_append, List.mem_singleton, false_or, false_and, and_false, if_false]
      exact ⟨False.elim, fun ⟨hpassed, htag, _⟩ => hnot ⟨hpassed, htag⟩⟩
  once := h.once
  increasing := h.increasing

/-- A new tag that is passed over is named behind the others. -/
theorem NamesFirsts.concat_new (h : NamesFirsts passed xs warnings) (hx : passed x.tag = true)
    (hnew : x.tag ∉ xs.map Symbol.tag) : NamesFirsts passed (xs ++ [x]) (warnings ++ [(x.tag, xs.length)]) where
  mem_iff tag i := by
    rw [List.mem_append, List.mem_singleton, h.mem_iff, List.map_append, List.map_singleton, List.idxOf_append]
    by_cases hmem : tag ∈ xs.map Symbol.tag
    · have hne : tag ≠ x.tag := fun heq => hnew (heq ▸ hmem)
      simp [hmem, hne]
    · by_cases htag : tag = x.tag
      · subst htag
        simp [hmem, hx]
      · simp [hmem, htag]
  once := by
    rw [List.map_append, List.map_singleton, ← List.concat_eq_append, List.nodup_concat]
    exact ⟨fun hmem => hnew ((h.mem_tags_iff _).mp hmem).2, h.once⟩
  increasing := by
    rw [List.pairwise_append]
    refine ⟨h.increasing, List.pairwise_singleton _ _, fun v hv w hw => ?_⟩
    obtain ⟨-, hmem, hi⟩ := (h.mem_iff v.1 v.2).mp hv
    rw [List.mem_singleton.mp hw, hi, ← List.length_map (f := Symbol.tag)]
    exact List.idxOf_lt_length_of_mem hmem

/-! ## Kinds of turtles -/

/-- Turtles of a kind never report a symbol as passed over themselves. -/
structure TurtleLike.SkipsNothing (τ : Type) {K : Type} [TurtleLike τ K] : Prop where
  act : ∀ (t : τ) (action : Action K), (act t action).2.skipped = []
  steer : ∀ f : τ → τ × Trace K, steer? = some f → ∀ t, (f t).2.skipped = []

theorem skipped_act [Scalar K] (t : Turtle K) (action : Action K) : (t.act action).2.skipped = [] := by
  cases action with
  | endPoly =>
    show (if 3 ≤ t.outline.length then _ else _ : Trace K).skipped = []
    split <;> rfl
  | forward | skip | turn | startPoly | horiz | setRadius => rfl

theorem skipped_steer [Scalar K] (m : Member K) (s : Skeleton K) (g : Guidance K) :
    (m.steer s g).2.skipped = [] := by
  have hsteers := steers m s g
  generalize m.steer s g = result at hsteers
  cases hsteers with
  | lost | leaf | branch | approach => rfl

theorem skipsNothing_turtle [Scalar K] : TurtleLike.SkipsNothing (Turtle K) where
  act := skipped_act
  steer f hf := by cases hf

theorem skipsNothing_population [Scalar K] : TurtleLike.SkipsNothing (Population K) where
  act p action := by
    show (p.act action).2.skipped = []
    unfold Population.act
    rw [skipped_gather, List.flatMap_map]
    exact List.flatMap_eq_nil_iff.mpr fun m _ => skipped_act m.turtle action
  steer f hf p := by
    obtain rfl := Option.some.inj hf
    unfold Population.steer
    rw [skipped_gather, List.flatMap_map]
    exact List.flatMap_eq_nil_iff.mpr fun m _ => skipped_steer m p.skeleton p.guidance

/-! ## Runs -/

section Runs

variable [TurtleLike τ K] {it : Interpreter K}

open Interpreter

/-- A symbol with a meaning is not reported as passed over. -/
theorem skipped_of_obeys (hτ : TurtleLike.SkipsNothing τ) {x : Symbol K} {m m' : Machine τ} {trace : Trace K}
    (h : it.Obeys x m m' trace) : trace.skipped = [] := by
  cases h with
  | act action => exact hτ.act m.turtle action
  | steer f _ hf => exact hτ.steer f hf m.turtle
  | stamp | push | pop | idle => rfl

/-- A run under way is behind a program, of whose symbols it has warned, and knows the tags that it has warned of. -/
structure Progress.Tells (it : Interpreter K) (p : Progress τ K) (xs : List (Symbol K)) : Prop where
  index : p.index = xs.length
  warned : ∀ tag, tag ∈ p.warned ↔ tag ∈ p.trace.skipped.map Prod.fst
  names : NamesFirsts (it.isMeaningless τ) xs p.trace.skipped

variable {xs : List (Symbol K)} {x : Symbol K} {p p' : Progress τ K}

theorem tells_start (m : Machine τ) : (Progress.start m).Tells it [] :=
  ⟨rfl, fun _ => Iff.rfl, .nil⟩

theorem Progress.Tells.executed (h : p.Tells it xs) (hx : it.isMeaningless τ x.tag = false) (m : Machine τ)
    {new : Trace K} (hnew : new.skipped = []) : (p.executed x.tag m new).Tells it (xs ++ [x]) := by
  obtain ⟨hindex, hwarned, hnames⟩ := h
  have hskipped : (p.executed x.tag m new).trace.skipped = p.trace.skipped := by
    rw [Progress.executed, skipped_append, hnew, List.append_nil]
  refine ⟨?_, ?_, ?_⟩
  · simp only [Progress.index, Progress.executed, List.length_append, List.length_singleton] at hindex ⊢
    omega
  · rw [hskipped]
    exact hwarned
  · rw [hskipped]
    exact hnames.concat_old (.inl hx)

theorem Progress.Tells.passedOver (h : p.Tells it xs) (hx : it.isMeaningless τ x.tag = true) :
    (p.passedOver x.tag).Tells it (xs ++ [x]) := by
  obtain ⟨hindex, hwarned, hnames⟩ := h
  have hknown : x.tag ∈ p.warned ↔ x.tag ∈ xs.map Symbol.tag := by
    rw [hwarned, hnames.mem_tags_iff]
    exact ⟨And.right, fun htag => ⟨hx, htag⟩⟩
  have hbehind : (p.passedOver x.tag).index = (xs ++ [x]).length := by
    simp only [Progress.index, Progress.passedOver, List.length_append, List.length_singleton] at hindex ⊢
    omega
  by_cases hmem : x.tag ∈ p.warned
  · have hsame : (p.passedOver x.tag).trace.skipped = p.trace.skipped ∧ (p.passedOver x.tag).warned = p.warned := by
      simp [Progress.passedOver, hmem]
    refine ⟨hbehind, ?_, ?_⟩
    · rw [hsame.1, hsame.2]
      exact hwarned
    · rw [hsame.1]
      exact hnames.concat_old (.inr (hknown.mp hmem))
  · have hone : (p.passedOver x.tag).trace.skipped = p.trace.skipped ++ [(x.tag, xs.length)] ∧
        (p.passedOver x.tag).warned = x.tag :: p.warned := by
      rw [← hindex]
      simp [Progress.passedOver, hmem, Trace.skipped, Trace.ofEvent, Event.skipped?, Progress.index]
    refine ⟨hbehind, fun tag => ?_, ?_⟩
    · rw [hone.1, hone.2, List.map_append, List.mem_append, List.mem_cons, ← hwarned, or_comm]
      simp
    · rw [hone.1]
      exact hnames.concat_new hx (mt hknown.mpr hmem)

/-- **One symbol of a run.** -/
theorem Progress.Tells.step (hτ : TurtleLike.SkipsNothing τ) (h : p.Tells it xs) (hs : it.step x p = .ok p') :
    p'.Tells it (xs ++ [x]) := by
  unfold Interpreter.step at hs
  cases ho : it.obey x p.machine with
  | fault fault => simp [ho] at hs
  | done m new =>
    simp only [ho, Except.ok.injEq] at hs
    subst hs
    exact h.executed (isMeaningless_of_done ho) m (skipped_of_obeys hτ (obeys_of_done ho))
  | meaningless =>
    cases hstrict : it.strict with
    | true => simp [ho, hstrict] at hs
    | false =>
      simp only [ho, hstrict, Bool.false_eq_true, if_false, Except.ok.injEq] at hs
      subst hs
      exact h.passedOver (obey_eq_meaningless_iff.mp ho)

/-- The symbols that a run got through: all, or those before the one that stopped it. -/
def Run.behind (r : Run τ K) (xs : List (Symbol K)) : List (Symbol K) :=
  match r.result with
  | .ok _ => xs
  | .error e => xs.take e.index

/-- A run under way warns, in the end, of the symbols that it got through from its start. -/
theorem namesFirsts_proceed (hτ : TurtleLike.SkipsNothing τ) {before : List (Symbol K)} (h : p.Tells it before)
    (xs : List (Symbol K)) :
    NamesFirsts (it.isMeaningless τ) ((it.proceed xs p).behind (before ++ xs)) (it.proceed xs p).trace.skipped := by
  induction xs generalizing before p with
  | nil =>
    have hend : (it.proceed [] p).trace.skipped = p.trace.skipped := by
      rw [proceed, Progress.finish, skipped_append]
      exact List.append_nil _
    rw [hend, List.append_nil]
    exact h.names
  | cons x xs ih =>
    rw [proceed]
    cases hs : it.step x p with
    | ok p' =>
      have hrest := ih (h.step hτ hs)
      rwa [List.append_assoc, List.singleton_append] at hrest
    | error fault =>
      have hbehind : (p.stop fault).behind (before ++ x :: xs) = before := by
        show (before ++ x :: xs).take p.index = before
        rw [h.index, List.take_left]
      show NamesFirsts _ ((p.stop fault).behind _) p.trace.skipped
      rw [hbehind]
      exact h.names

theorem namesFirsts_run (hτ : TurtleLike.SkipsNothing τ) (xs : List (Symbol K)) (m : Machine τ) :
    NamesFirsts (it.isMeaningless τ) ((it.run xs m).behind xs) (it.run xs m).trace.skipped :=
  namesFirsts_proceed hτ (tells_start m) xs

/-- The warnings of a run about symbols that are passed over are worded for a list that names, of the symbols that the
run got through, every tag that is passed over once with its first place. A run that succeeds has counted every symbol
with such a tag. -/
def Interpreter.WarnsOnce [Numeral K] (it : Interpreter K) (passed : Tag → Bool) (xs : List (Symbol K))
    (m : Machine τ) : Prop :=
  ∃ warnings, (it.run xs m).trace.skipWarnings = warnings.map skipWarning ∧
    NamesFirsts passed ((it.run xs m).behind xs) warnings ∧
    ∀ report, (it.run xs m).result = .ok report → report.unresolved = xs.countP fun x => passed x.tag

theorem warnsOnce_run [Numeral K] (hτ : TurtleLike.SkipsNothing τ) (xs : List (Symbol K)) (m : Machine τ) :
    it.WarnsOnce (it.isMeaningless τ) xs m :=
  ⟨_, skipWarnings_eq _, namesFirsts_run hτ xs m, fun _ hreport => (run_report hreport).2.1⟩

end Runs

/-! ## Turtles and populations -/

section Kinds

variable [Scalar K]

/-- The tags that are passed over: the nonterminals, ornaments when none is attached, and guidance when there is
nothing to steer by. -/
def Interpreter.passesOver (it : Interpreter K) (guided : Bool) : Tag → Bool
  | .nonterminal _ => true
  | .ornament => it.ornament.isNone
  | .considerData => !guided
  | _ => false

theorem isMeaningless_turtle_eq (it : Interpreter K) : it.isMeaningless (Turtle K) = it.passesOver false := by
  funext tag
  cases tag <;> rfl

theorem isMeaningless_population_eq (it : Interpreter K) : it.isMeaningless (Population K) = it.passesOver true := by
  funext tag
  cases tag <;> rfl

/-- **A run warns once of every tag that it passes over.** For every interpreter and program, and every turtle and
population with any stack, whatever runs were made with it before: the run warns of a tag exactly when it gets through a
symbol with this tag and passes over it, which is so for nonterminals, each letter for itself, for ornaments when none
is attached, and for guidance of a single turtle. There is one warning for each tag; it names the first place of the
tag in the program, and the places increase. All symbols with these tags are counted. A run that is stopped warns of the
symbols before the one that stopped it. -/
theorem warns_once [Numeral K] (it : Interpreter K) (xs : List (Symbol K))
    (earlier : List (Interpreter K × List (Symbol K))) :
    (∀ m : Machine (Turtle K), it.WarnsOnce (it.passesOver false) xs (m.afterRuns earlier)) ∧
    ∀ m : Machine (Population K), it.WarnsOnce (it.passesOver true) xs (m.afterRuns earlier) := by
  rw [← isMeaningless_turtle_eq, ← isMeaningless_population_eq]
  exact ⟨fun m => warnsOnce_run skipsNothing_turtle xs _, fun m => warnsOnce_run skipsNothing_population xs _⟩

/-- Brackets restore the turtle, but not the tags that were warned of; the last symbol is stopped. -/
example :
    let named (c : Char) : Symbol Float := .bare (.nonterminal c)
    let program := [named 'A', .bare .push, .bare .considerData, named 'B', named 'A', .bare .pop, .bare .ornament,
      .bare .considerData, named 'B', .bare .pop, named 'C']
    let m : Machine (Turtle Float) := ⟨.ofConfig .standard, []⟩
    (Interpreter.standard.run program m).trace.skipped =
      [(.nonterminal 'A', 0), (.considerData, 2), (.nonterminal 'B', 3), (.ornament, 6)] := by
  rfl

end Kinds

end Foliage
