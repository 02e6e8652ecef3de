import Foliage.Proofs.Interpreter.Faults
import Foliage.Proofs.Interpreter.Strokes
import Foliage.Proofs.PartialMap
import Foliage.Proofs.Population.Steering
import Mathlib.Algebra.BigOperators.Group.List.Basic
import Mathlib.Algebra.GroupWithZero.Nat

/-!
# Members in unison

A population that does not steer is its members side by side. The turtles of all members are followed at once, as a
machine whose turtles are functions of a member: with `withTurtles` it is the machine of the population, and at a member
it is the machine of that member's turtle alone. A symbol that does not steer takes the population and each member on
its own through the same step of this machine (`perform_each`), or stops all of them (`perform_each_error`), and a
program goes symbol by symbol (`executes_each`). So the run of a population has the outcome, the turtles, the saved
turtles and the faces of the runs of its members (`run_members`).
-/

namespace Foliage

/-- The machine with every turtle replaced by its image. -/
def Machine.map {τ σ : Type} (f : τ → σ) (m : Machine τ) : Machine σ := ⟨f m.turtle, m.stack.map f⟩

variable {K : Type}

/-- A turtle for every member. -/
abbrev Crew (K : Type) := Member K → Turtle K

/-- The population whose members have the given turtles and are otherwise as they were. -/
def Population.withTurtles (p : Population K) (f : Crew K) : Population K :=
  { p with members := p.members.map fun m => { m with turtle := f m } }

theorem withTurtles_turtle (p : Population K) : p.withTurtles Member.turtle = p := by
  simp [Population.withTurtles]

/-! ## The operations of a population -/

section Stamp

variable {p : Population K} {f : Crew K} {s : Stamp K}

/-- The stamp of a population is missing faces exactly when that of some member is. -/
theorem stamp?_withTurtles_eq_none_iff :
    (p.withTurtles f).stamp? s = none ↔ ∃ m ∈ p.members, (f m).stamp? s = none := by
  rw [Population.stamp?, Option.map_eq_none_iff, mapM_eq_none_iff, Population.withTurtles]
  simp

/-- A population stamps what its members stamp. -/
theorem stamp?_withTurtles (h : ∀ m ∈ p.members, ((f m).stamp? s).isSome) :
    (p.withTurtles f).stamp? s = some (p.members.flatMap fun m => ((f m).stamp? s).getD []) := by
  have hall : ((p.withTurtles f).members.mapM fun m => m.turtle.stamp? s) =
      some (p.members.map fun m => ((f m).stamp? s).getD []) := by
    rw [Population.withTurtles, List.mapM_map]
    exact mapM_of_isSome h []
  rw [Population.stamp?, hall, Option.map_some, List.flatMap_def]

end Stamp

variable [Scalar K]

theorem act_withTurtles (p : Population K) (f : Crew K) (action : Action K) :
    ((p.withTurtles f).act action).1 = (p.withTurtles fun m => ((f m).act action).1) ∧
      ((p.withTurtles f).act action).2.faces.toList = p.members.flatMap fun m => ((f m).act action).2.faces.toList := by
  constructor
  · simp [Population.act, Population.withTurtles, Member.act]
  · rw [faces_act, Population.withTurtles, List.flatMap_map]

/-! ## One symbol -/

open Interpreter

variable {it : Interpreter K} {p : Population K}

/-- Whether a tag other than that of steering means something is the same for a population as for a turtle. -/
theorem isMeaningless_population {tag : Tag} (h : tag ≠ .considerData) :
    it.isMeaningless (Population K) tag = it.isMeaningless (Turtle K) tag := by
  cases tag
  case considerData => exact absurd rfl h
  all_goals rfl

/-- What a symbol that does not steer does to a population it does to each member on its own. -/
theorem perform_each {x : Symbol K} (hx : x.tag ≠ .considerData) {a : Machine (Crew K)} {M : Machine (Population K)}
    {F : List (Face K)} (h : it.perform x (a.map p.withTurtles) = .ok (M, F)) :
    ∃ (a' : Machine (Crew K)) (fs : Member K → List (Face K)),
      M = a'.map p.withTurtles ∧ F = p.members.flatMap fs ∧
        ∀ m ∈ p.members, it.perform x (a.map (· m)) = .ok (a'.map (· m), fs m) := by
  cases perform_ok_iff.mp h with
  | act action ha =>
    obtain ⟨hact, hfaces⟩ := act_withTurtles p a.turtle action
    refine ⟨⟨fun m => ((a.turtle m).act action).1, a.stack⟩, fun m => ((a.turtle m).act action).2.faces.toList,
      ?_, hfaces, fun m _ => perform_ok_iff.mpr (.act action ha)⟩
    exact congrArg (fun t => (⟨t, a.stack.map p.withTurtles⟩ : Machine (Population K))) hact
  | stamp s F hx' ho hs =>
    have hall : ∀ m ∈ p.members, ((a.turtle m).stamp? s).isSome := by
      intro m hm
      by_contra hnone
      have hpop := stamp?_withTurtles_eq_none_iff.mpr ⟨m, hm, Option.not_isSome_iff_eq_none.mp hnone⟩
      exact Option.some_ne_none F (hs.symm.trans hpop)
    refine ⟨a, fun m => ((a.turtle m).stamp? s).getD [], rfl,
      Option.some.inj (hs.symm.trans (stamp?_withTurtles hall)), fun m hm => ?_⟩
    obtain ⟨fs, hfs⟩ := Option.isSome_iff_exists.mp (hall m hm)
    have hgiven : (a.turtle m).stamp? s = some (((a.turtle m).stamp? s).getD []) := by rw [hfs, Option.getD_some]
    exact perform_ok_iff.mpr (.stamp s _ hx' ho hgiven)
  | steer f hx' => exact absurd hx' hx
  | push hx' hd =>
    have hdepth : ∀ m, (a.map (· m)).stack.length < it.maxStackDepth := fun m => by simpa [Machine.map] using hd
    exact ⟨⟨a.turtle, a.turtle :: a.stack⟩, fun _ => [], rfl, by simp,
      fun m _ => perform_ok_iff.mpr (.push hx' (hdepth m))⟩
  | pop t rest hx' hs =>
    obtain ⟨f, fs, hstack, rfl, rfl⟩ := List.map_eq_cons_iff.mp hs
    refine ⟨⟨f, fs⟩, fun _ => [], rfl, by simp, fun m _ => perform_ok_iff.mpr (.pop _ _ hx' ?_)⟩
    rw [Machine.map, hstack, List.map_cons]
  | idle hx' hamount => exact ⟨a, fun _ => [], rfl, by simp, fun m _ => perform_ok_iff.mpr (.idle hx' hamount)⟩
  | pass hmeaning hl =>
    rw [isMeaningless_population hx] at hmeaning
    exact ⟨a, fun _ => [], rfl, by simp, fun m _ => perform_ok_iff.mpr (.pass hmeaning hl)⟩

/-- What stops a population at a symbol that does not steer stops each member on its own, or is an ornament that stops
some member on its own. -/
theorem perform_each_error {x : Symbol K} (hx : x.tag ≠ .considerData) {a : Machine (Crew K)} {fault : Fault}
    (h : it.perform x (a.map p.withTurtles) = .error fault) :
    (∀ m ∈ p.members, it.perform x (a.map (· m)) = .error fault) ∨
      fault = .brokenOrnament ∧ ∃ m ∈ p.members, it.perform x (a.map (· m)) = .error fault := by
  obtain hf | ⟨rfl, -⟩ := faultOf?_of_perform h
  · refine .inl fun m _ => perform_of_faultOf? ?_
    rw [← hf]
    simp [faultOf?, isMeaningless_population hx, Machine.map]
  · obtain ⟨hx', s, ho, hs⟩ := perform_eq_brokenOrnament_iff.mp h
    obtain ⟨m, hm, hnone⟩ := stamp?_withTurtles_eq_none_iff.mp hs
    exact .inr ⟨rfl, m, hm, perform_eq_brokenOrnament_iff.mpr ⟨hx', s, ho, hnone⟩⟩

/-! ## Programs -/

variable {xs : List (Symbol K)}

/-- A population gets through a program that does not steer only together with each member on its own. -/
theorem executes_each (hxs : ∀ x ∈ xs, x.tag ≠ .considerData) {a : Machine (Crew K)} {M : Machine (Population K)}
    {F : List (Face K)} (h : it.Executes xs (a.map p.withTurtles) F M) :
    ∃ (a' : Machine (Crew K)) (fs : Member K → List (Face K)),
      M = a'.map p.withTurtles ∧ F.length = (p.members.map fun m => (fs m).length).sum ∧
        ∀ m ∈ p.members, it.Executes xs (a.map (· m)) (fs m) (a'.map (· m)) := by
  induction xs generalizing a F with
  | nil =>
    cases h
    exact ⟨a, fun _ => [], rfl, by simp, fun m _ => .nil _⟩
  | cons x xs ih =>
    obtain ⟨M₁, F₁, F₂, hx, htail, rfl⟩ := executes_cons_iff.mp h
    obtain ⟨a₁, fs, rfl, rfl, hone⟩ := perform_each (hxs x List.mem_cons_self) hx
    obtain ⟨a', gs, rfl, hlength, hrest⟩ := ih (fun y hy => hxs y (List.mem_cons_of_mem _ hy)) htail
    refine ⟨a', fun m => fs m ++ gs m, rfl, ?_, fun m hm => .cons (hone m hm) (hrest m hm)⟩
    simp only [List.length_append, List.length_flatMap, hlength, List.sum_map_add]

/-- At every symbol that a population gets through, it draws what its members draw there on their own. -/
theorem drawnAt_each {pre post : List (Symbol K)} (hxs : ∀ y ∈ pre ++ post, y.tag ≠ .considerData)
    {a : Machine (Crew K)} {M : Machine (Population K)} {F : List (Face K)}
    (h : it.Executes pre (a.map p.withTurtles) F M) {i : Nat} (hi : i < pre.length) :
    it.drawnAt (pre ++ post) (a.map p.withTurtles) i =
      p.members.flatMap fun m => it.drawnAt (pre ++ post) (a.map (· m)) i := by
  obtain ⟨before, x, after, rfl, rfl, -⟩ := exists_split (List.getElem?_eq_getElem hi)
  obtain ⟨F₁, M₁, F₂, hbefore, hrest, -⟩ := executes_append_iff.mp h
  obtain ⟨M₂, G, -, hx, -, -⟩ := executes_cons_iff.mp hrest
  obtain ⟨a₁, fs, rfl, -, hlone⟩ := executes_each (fun y hy => hxs y (by simp [hy])) hbefore
  obtain ⟨a₂, gs, -, rfl, hone⟩ := perform_each (hxs x (by simp)) hx
  simp only [List.append_assoc, List.cons_append]
  rw [drawnAt_of_perform hbefore hx]
  exact List.flatMap_congr fun m hm => (drawnAt_of_perform (hlone m hm) (hone m hm) _).symm

theorem reportOf_population (hxs : ∀ x ∈ xs, x.tag ≠ .considerData) (depth faces : Nat) :
    it.reportOf (Population K) depth xs faces = it.reportOf (Turtle K) depth xs faces := by
  have hsame : ∀ x ∈ xs, it.isMeaningless (Population K) x.tag = it.isMeaningless (Turtle K) x.tag :=
    fun x hx => isMeaningless_population (hxs x hx)
  have hpassed : xs.countP (fun x => it.isMeaningless (Population K) x.tag) =
      xs.countP fun x => it.isMeaningless (Turtle K) x.tag := List.countP_congr fun x hx => by rw [hsame x hx]
  have hexecuted : xs.countP (fun x => !it.isMeaningless (Population K) x.tag) =
      xs.countP fun x => !it.isMeaningless (Turtle K) x.tag := List.countP_congr fun x hx => by rw [hsame x hx]
  rw [reportOf, reportOf, hpassed, hexecuted]

omit [Scalar K] in
/-- The machine of a population and those of its members, when they come from the same crew. -/
theorem members_of_crew {a : Machine (Crew K)} {M : Machine (Population K)} {lone : Member K → Machine (Turtle K)}
    (hM : M = a.map p.withTurtles) (hlone : ∀ m ∈ p.members, lone m = a.map (· m)) :
    (∀ q ∈ M.turtle :: M.stack, q.skeleton = p.skeleton ∧ q.guidance = p.guidance ∧ q.size = p.size) ∧
    ∀ (i : Nat) (m : Member K), p.members[i]? = some m →
      M.turtle.members[i]? = some { m with turtle := (lone m).turtle } ∧
      M.stack.map (·.members[i]?) = (lone m).stack.map fun t => some { m with turtle := t } := by
  subst hM
  constructor
  · intro q hq
    obtain ⟨f, -, rfl⟩ : ∃ f ∈ a.turtle :: a.stack, p.withTurtles f = q := by simpa [Machine.map, eq_comm] using hq
    simp [Population.withTurtles, Population.size]
  · intro i m hm
    rw [hlone m (List.mem_of_getElem? hm)]
    simp [Machine.map, Population.withTurtles, hm]

/-! ## Runs -/

/-- **A population that does not steer is its members side by side.** Run a program without steering on a population
with nothing saved, and on the turtle of each member alone. Unless an ornament ends the run of the population and that
of some member, all runs fail alike or all succeed; then their reports differ in the number of faces alone, and those of
the members add up to that of the population. All populations, the last one and the saved ones, have as many members as
the first, each at its node and with its first step; their turtles are those of the lone runs, the last one and the
saved ones. At each symbol the population draws what the lone runs draw there, one member after the other. -/
theorem run_members (it : Interpreter K) (p : Population K) (hxs : ∀ x ∈ xs, x.tag ≠ .considerData) :
    let whole := it.run xs ⟨p, []⟩
    let lone := fun m : Member K => it.run xs ⟨m.turtle, []⟩
    (whole.Panicked ∧ ∃ m ∈ p.members, (lone m).result = whole.result) ∨
    ((∃ e, whole.result = .error e ∧ ∀ m ∈ p.members, (lone m).result = .error e) ∨
      ∃ report faces, whole.result = .ok report ∧ report.faces = (p.members.map faces).sum ∧
        ∀ m ∈ p.members, (lone m).result = .ok { report with faces := faces m }) ∧
    ((∀ q ∈ whole.machine.turtle :: whole.machine.stack,
      q.skeleton = p.skeleton ∧ q.guidance = p.guidance ∧ q.size = p.size) ∧
    ∀ (i : Nat) (m : Member K), p.members[i]? = some m →
      whole.machine.turtle.members[i]? = some { m with turtle := (lone m).machine.turtle } ∧
      whole.machine.stack.map (·.members[i]?) = (lone m).machine.stack.map fun t => some { m with turtle := t }) ∧
    ∀ i, it.drawnAt xs ⟨p, []⟩ i = p.members.flatMap fun m => it.drawnAt xs ⟨m.turtle, []⟩ i := by
  intro whole lone
  have hstart : (⟨p, []⟩ : Machine (Population K)) = Machine.map p.withTurtles ⟨Member.turtle, []⟩ := by
    rw [Machine.map, withTurtles_turtle, List.map_nil]
  rcases executes_or_stops it xs ⟨p, []⟩ with ⟨F, M, h⟩ | ⟨pre, x, post, F, M, fault, rfl, h, hx⟩
  · right
    obtain ⟨hmachine, -, hresult⟩ := run_of_executes h
    rw [hstart] at h
    obtain ⟨a, fs, rfl, hlength, hlone⟩ := executes_each hxs h
    refine ⟨.inr ⟨_, fun m => (fs m).length, hresult, hlength, fun m hm => ?_⟩,
      members_of_crew hmachine fun m hm => (run_of_executes (hlone m hm)).1, fun i => ?_⟩
    · rw [reportOf_population hxs]
      exact (run_of_executes (hlone m hm)).2.2
    · rcases Nat.lt_or_ge i xs.length with hi | hi
      · rw [hstart, ← List.append_nil xs]
        exact drawnAt_each (by simpa using hxs) h hi
      · simp [drawnAt_of_length_le hi]
  · obtain ⟨hmachine, -, hresult⟩ := run_of_stops h hx post
    rw [hstart] at h
    obtain ⟨a, fs, rfl, -, hlone⟩ := executes_each (fun y hy => hxs y (List.mem_append_left _ hy)) h
    obtain hall | ⟨rfl, m, hm, hbroken⟩ := perform_each_error (hxs x (by simp)) hx
    · right
      have hstops := fun m hm => run_of_stops (hlone m hm) (hall m hm) post
      refine ⟨.inl ⟨_, hresult, fun m hm => (hstops m hm).2.2⟩,
        members_of_crew hmachine fun m hm => (hstops m hm).1, fun i => ?_⟩
      rcases Nat.lt_or_ge i pre.length with hi | hi
      · rw [hstart]
        exact drawnAt_each hxs h hi
      · rw [hstart, drawnAt_of_stops h hx post hi]
        refine (List.flatMap_eq_nil_iff.mpr fun m hm => ?_).symm
        exact drawnAt_of_stops (hlone m hm) (hall m hm) post hi
    · exact .inl ⟨⟨_, hresult⟩, m, hm, (run_of_stops (hlone m hm) hbroken post).2.2.trans hresult.symm⟩

/-- Two members of different width draw an outline in brackets and leave one save open. -/
theorem run_members_pair :
    let narrow : Turtle Float := .ofConfig .standard
    let wide : Turtle Float := .ofConfig { TurtleConfig.standard with radius := 2, position := ⟨1, 0, 0⟩ }
    let p : Population Float := ⟨.single 0, .standard, [⟨narrow, 0, 0.5⟩, ⟨wide, 3, 7⟩]⟩
    let xs : List (Symbol Float) :=
      [.bare .push, .bare .startPoly, .bare .push, .bare .forward, .bare .pop, .ofAmount .trunk 2, .bare .endPoly]
    (∀ x ∈ xs, x.tag ≠ .considerData) ∧ (Interpreter.standard.run xs ⟨p, []⟩).result = .ok ⟨7, 16, 0, 2⟩ ∧
      (∀ m ∈ p.members, ∃ faces, (Interpreter.standard.run xs ⟨m.turtle, []⟩).result = .ok ⟨7, faces, 0, 2⟩) ∧
      (Interpreter.standard.run xs ⟨p, []⟩).machine.turtle.members[1]? =
        some ⟨(Interpreter.standard.run xs ⟨wide, []⟩).machine.turtle, 3, 7⟩ := by
  intro narrow wide p xs
  have hxs : ∀ x ∈ xs, x.tag ≠ .considerData := by simp [xs, Symbol.bare, Symbol.ofAmount]
  have hr : (Interpreter.standard.run xs ⟨p, []⟩).result = .ok ⟨7, 16, 0, 2⟩ := rfl
  rcases run_members .standard p hxs with ⟨⟨i, hi⟩, -⟩ | ⟨⟨e, he, -⟩ | ⟨report, faces, hreport, -, hlone⟩, ⟨-, hm⟩, -⟩
  · cases hr.symm.trans hi
  · cases hr.symm.trans he
  · obtain rfl := Except.ok.inj (hr.symm.trans hreport)
    exact ⟨hxs, hr, fun m hmem => ⟨faces m, hlone m hmem⟩, (hm 1 _ rfl).1⟩

end Foliage
