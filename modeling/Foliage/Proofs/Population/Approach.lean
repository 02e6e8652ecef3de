import Foliage.Proofs.Population.Successors
import Foliage.Proofs.Space.Exact

/-!
# How a member approaches its node

A member far from its node that steers and then moves goes a part of the way, as large as the leniency. Read over exact
arithmetic, its position relative to the node is multiplied by what the leniency leaves of one, whatever its heading was
before (`position_stepToward`); where the leniency exceeds one, the member overshoots and turns around at every round.

So as long as it has not arrived at the start of a round, a population of one member keeps one member with the same
cursor, at a distance multiplied by a power (`executes_guidedRounds`). The distance falls below any tolerance when the
leniency lies between zero and two, so that the member arrives and forks (`rounds_approach`).
-/

namespace Foliage

open Interpreter

section Rounds

variable {K : Type}

/-- Steer, then draw by the step that steering has set. -/
def guidedRound : List (Symbol K) := [.bare .considerData, .bare .forward]

/-- Several rounds in a row. -/
def guidedRounds (k : Nat) : List (Symbol K) := (List.replicate k guidedRound).flatten

theorem guidedRounds_succ (k : Nat) : (guidedRounds (k + 1) : List (Symbol K)) = guidedRounds k ++ guidedRound := by
  rw [guidedRounds, List.replicate_succ', List.flatten_append, List.flatten_singleton]
  rfl

variable [Scalar K]

/-- A frame is headed for a direction, whatever its direction was. -/
theorem direction_headToward (f : Frame K) (target : Vec K) : (f.headToward target).direction = target := by
  unfold Frame.headToward
  cases h : (f.direction.normalizeOrZero.cross target).normalize? <;> simp only [h]

theorem steer_eq (p : Population K) :
    p.steer.1 = { p with members := p.members.flatMap fun m => (m.steer p.skeleton p.guidance).1 } := by
  rw [← members_steer]
  rfl

theorem act_eq (p : Population K) (action : Action K) :
    (p.act action).1 = { p with members := p.members.map fun m => { m with turtle := (m.turtle.act action).1 } } := by
  rw [← members_act]
  rfl

variable {m : Member K} {n : Node K}

/-- A member with the step behind it that steering has set. -/
def Member.stepToward (m : Member K) (g : Guidance K) (n : Node K) : Member K :=
  let aimed := m.onCourse g m.cursor n
  { aimed with turtle := aimed.turtle.advance (aimed.turtle.stride none) }

/-- Steering as a program of its own. -/
theorem executes_considerData (it : Interpreter K) (p : Population K) (stack : List (Population K)) :
    it.Executes [.bare .considerData] ⟨p, stack⟩ p.steer.2.faces.toList
      ⟨{ p with members := p.members.flatMap fun m => (m.steer p.skeleton p.guidance).1 }, stack⟩ := by
  have hperform : it.perform (.bare .considerData) ⟨p, stack⟩ = .ok (⟨p.steer.1, stack⟩, p.steer.2.faces.toList) :=
    perform_ok_iff.mpr (.steer Population.steer rfl rfl)
  rw [← steer_eq]
  simpa using Executes.cons hperform (.nil _)

/-- Moving by the own step as a program of its own. -/
theorem executes_forward (it : Interpreter K) (p : Population K) (stack : List (Population K)) :
    it.Executes [.bare .forward] ⟨p, stack⟩ (p.act (.forward none)).2.faces.toList
      ⟨{ p with members := p.members.map fun m => { m with turtle := (m.turtle.act (.forward none)).1 } }, stack⟩ := by
  have hperform : it.perform (.bare .forward) ⟨p, stack⟩ =
      .ok (⟨(p.act (.forward none)).1, stack⟩, (p.act (.forward none)).2.faces.toList) :=
    perform_ok_iff.mpr (.act (.forward none) rfl)
  rw [← act_eq]
  simpa using Executes.cons hperform (.nil _)

/-- A round that a single member begins far from its node. -/
theorem executes_guidedRound (it : Interpreter K) {p : Population K} (stack : List (Population K))
    (hp : p.members = [m]) (hn : p.skeleton.node? m.cursor = some n) (hc : n.children ≠ [])
    (hfar : ¬ m.turtle.position.dist n.point ≤ p.guidance.proximityTolerance) :
    ∃ fs, it.Executes guidedRound ⟨p, stack⟩ fs ⟨{ p with members := [m.stepToward p.guidance n] }, stack⟩ := by
  have haimed : (m.steer p.skeleton p.guidance).1 = [m.onCourse p.guidance m.cursor n] := by
    rcases (becomes_of_steer m p.skeleton p.guidance).of_children hn hc with ⟨hnear, -⟩ | ⟨-, haimed⟩
    · exact absurd hnear hfar
    · exact haimed
  have hsteer := executes_considerData it p stack
  rw [hp, List.flatMap_singleton, haimed] at hsteer
  exact ⟨_, hsteer.append (executes_forward it _ stack)⟩

end Rounds

/-! ## Exact distances -/

section Exact

open Vec

variable {it : Interpreter ℝ} {p : Population ℝ} {stack : List (Population ℝ)} {g : Guidance ℝ} {m : Member ℝ}
  {n : Node ℝ}

/-- A step on the course to a node goes a part of the way to it, as large as the leniency. -/
theorem stride_onCourse (hne : n.point - m.turtle.position ≠ 0) (id : Nat) :
    (m.onCourse g id n).turtle.stride none = (n.point - m.turtle.position) * g.leniency := by
  cases hway : (n.point - m.turtle.position).normalize? with
  | none => exact absurd (normalize?_eq_none_iff.mp hway) hne
  | some heading =>
    have hdirection : (m.turtle.headToward n.point).2.frame.direction = heading := by
      unfold Turtle.headToward
      simp only [hway, direction_headToward]
    obtain ⟨-, hmultiple, -⟩ := of_normalize? hway
    show (m.turtle.headToward n.point).2.frame.direction * (g.leniency * (n.point - m.turtle.position).length) = _
    rw [hdirection]
    nth_rewrite 2 [hmultiple]
    ext <;> simp only [mul_x, mul_y, mul_z] <;> ring

/-- **A round multiplies the distance to the node** by what is left of one. -/
theorem position_stepToward (hne : n.point - m.turtle.position ≠ 0) :
    (m.stepToward g n).turtle.position = n.point + (m.turtle.position - n.point) * (1 - g.leniency) := by
  show m.turtle.position + (m.onCourse g m.cursor n).turtle.stride none = _
  rw [stride_onCourse hne]
  ext <;> simp only [add_x, add_y, add_z, sub_x, sub_y, sub_z, mul_x, mul_y, mul_z] <;> ring

theorem sub_ne_zero_of_far {tolerance : ℝ} {a b : Vec ℝ} (htolerance : 0 ≤ tolerance)
    (hfar : ¬ a.dist b ≤ tolerance) : b - a ≠ 0 := by
  intro hzero
  have hsame : b.dist a = 0 := length_eq_zero_iff.mpr hzero
  apply hfar
  rwa [Vec.dist_comm, hsame]

/-- In the population behind so many rounds, every member is out of the tolerance of a point. -/
def Interpreter.FarAfter (it : Interpreter ℝ) (p : Population ℝ) (stack : List (Population ℝ)) (target : Vec ℝ)
    (k : Nat) : Prop :=
  ∀ m ∈ (it.run (guidedRounds k) ⟨p, stack⟩).machine.turtle.members,
    ¬ m.turtle.position.dist target ≤ p.guidance.proximityTolerance

/-- **Rounds of a member that does not arrive** before the last of them begins: one member is left, on the way to the
same node. -/
theorem executes_guidedRounds (hp : p.members = [m]) (hn : p.skeleton.node? m.cursor = some n)
    (hc : n.children ≠ []) (htolerance : 0 ≤ p.guidance.proximityTolerance) (k : Nat)
    (hfar : ∀ i < k, it.FarAfter p stack n.point i) :
    ∃ fs m', it.Executes (guidedRounds k) ⟨p, stack⟩ fs ⟨{ p with members := [m'] }, stack⟩ ∧ m'.cursor = m.cursor ∧
      m'.turtle.position = n.point + (m.turtle.position - n.point) * (1 - p.guidance.leniency) ^ k := by
  induction k with
  | zero =>
    refine ⟨[], m, ?_, rfl, ?_⟩
    · rw [← hp]
      exact .nil _
    · ext <;> simp
  | succ k ih =>
    obtain ⟨fs, m', hrounds, hcursor, hposition⟩ := ih fun i hi => hfar i (Nat.lt_succ_of_lt hi)
    have hfar' : ¬ m'.turtle.position.dist n.point ≤ p.guidance.proximityTolerance := by
      refine hfar k (Nat.lt_succ_self k) m' ?_
      rw [(run_of_executes hrounds).1]
      exact List.mem_singleton_self m'
    obtain ⟨gs, hround⟩ := executes_guidedRound it stack (p := { p with members := [m'] }) rfl (hcursor ▸ hn) hc hfar'
    refine ⟨fs ++ gs, m'.stepToward p.guidance n, ?_, hcursor, ?_⟩
    · rw [guidedRounds_succ]
      exact hrounds.append hround
    · rw [position_stepToward (sub_ne_zero_of_far htolerance hfar'), hposition, pow_succ]
      ext <;> simp only [add_x, add_y, add_z, sub_x, sub_y, sub_z, mul_x, mul_y, mul_z] <;> ring

/-- Whether a member that had not arrived before has done so behind a round depends on its first distance alone. -/
theorem farAfter_iff (hp : p.members = [m]) (hn : p.skeleton.node? m.cursor = some n) (hc : n.children ≠ [])
    (htolerance : 0 ≤ p.guidance.proximityTolerance) {k : Nat} (hfar : ∀ i < k, it.FarAfter p stack n.point i) :
    it.FarAfter p stack n.point k ↔
      p.guidance.proximityTolerance < |1 - p.guidance.leniency| ^ k * m.turtle.position.dist n.point := by
  obtain ⟨fs, m', hrounds, -, hposition⟩ := executes_guidedRounds hp hn hc htolerance k hfar
  have hdist : m'.turtle.position.dist n.point =
      |1 - p.guidance.leniency| ^ k * m.turtle.position.dist n.point := by
    rw [hposition, dist_add_mul, abs_pow]
  unfold FarAfter
  rw [(run_of_executes hrounds).1, ← hdist, ← not_le]
  simp

/-- A leniency between zero and two brings the member within any tolerance, and there is a first round behind which it
is there. -/
theorem exists_arrival (it : Interpreter ℝ) (stack : List (Population ℝ)) (hp : p.members = [m])
    (hn : p.skeleton.node? m.cursor = some n) (hc : n.children ≠ []) (hlow : 0 < p.guidance.leniency)
    (hhigh : p.guidance.leniency < 2) (htolerance : 0 < p.guidance.proximityTolerance) :
    ∃ k, (∀ i < k, it.FarAfter p stack n.point i) ∧ ¬ it.FarAfter p stack n.point k := by
  classical
  have hnear : ∃ k, ¬ it.FarAfter p stack n.point k := by
    by_contra! hfar
    have hshrinks : |1 - p.guidance.leniency| < 1 := abs_lt.mpr ⟨by linarith, by linarith⟩
    have hdist : 0 < m.turtle.position.dist n.point + 1 := add_pos_of_nonneg_of_pos (length_nonneg _) one_pos
    obtain ⟨k, hk⟩ := exists_pow_lt_of_lt_one (div_pos htolerance hdist) hshrinks
    have hpow : 0 ≤ |1 - p.guidance.leniency| ^ k := pow_nonneg (abs_nonneg _) k
    have hout := (farAfter_iff hp hn hc htolerance.le fun i _ => hfar i).mp (hfar k)
    rw [lt_div_iff₀ hdist] at hk
    linarith
  exact ⟨Nat.find hnear, fun i hi => not_not.mp (Nat.find_min hnear hi), Nat.find_spec hnear⟩

/-- **A member approaches its node.** In a population of one member, whose node has children, rounds of steering and
moving end in no fault as long as the member has not come within the tolerance at the start of one. It then stays alone
and on the way to the same node, and its way from the node is the first one times a power of what the leniency leaves of
one. With a leniency between zero and two and a positive tolerance it arrives after finitely many rounds; when it steers
there, one copy of it replaces it for each child of the node that exists, each on the course to its child. -/
theorem rounds_approach (it : Interpreter ℝ) {p : Population ℝ} (stack : List (Population ℝ)) {m : Member ℝ}
    {n : Node ℝ} (hp : p.members = [m]) (hn : p.skeleton.node? m.cursor = some n) (hc : n.children ≠ [])
    (htolerance : 0 ≤ p.guidance.proximityTolerance) :
    let c := p.guidance.leniency
    let start := m.turtle.position
    (∀ k, (∀ i < k, it.FarAfter p stack n.point i) →
      let run := it.run (guidedRounds k) ⟨p, stack⟩
      ∃ m', (∃ report, run.result = .ok report) ∧ run.machine = ⟨{ p with members := [m'] }, stack⟩ ∧
        m'.cursor = m.cursor ∧ m'.turtle.position = n.point + (start - n.point) * (1 - c) ^ k ∧
        m'.turtle.position.dist n.point = |1 - c| ^ k * start.dist n.point) ∧
    (0 < c → c < 2 → 0 < p.guidance.proximityTolerance →
      ∃ k m' group, (∀ i < k, it.FarAfter p stack n.point i) ∧
        (it.run (guidedRounds k) ⟨p, stack⟩).machine = ⟨{ p with members := [m'] }, stack⟩ ∧
        m'.turtle.position.dist n.point ≤ p.guidance.proximityTolerance ∧
        (it.run (guidedRounds k ++ [.bare .considerData]) ⟨p, stack⟩).machine = ⟨{ p with members := group }, stack⟩ ∧
        List.Forall₂ (fun id copy => ∃ child, p.skeleton.node? id = some child ∧ copy = m'.onCourse p.guidance id child)
          (n.children.filter fun id => (p.skeleton.node? id).isSome) group) := by
  intro c start
  refine ⟨fun k hfar => ?_, fun hlow hhigh hpositive => ?_⟩
  · obtain ⟨fs, m', hrounds, hcursor, hposition⟩ := executes_guidedRounds hp hn hc htolerance k hfar
    obtain ⟨hmachine, -, hresult⟩ := run_of_executes hrounds
    exact ⟨m', ⟨_, hresult⟩, hmachine, hcursor, hposition, by rw [hposition, dist_add_mul, abs_pow]⟩
  · obtain ⟨k, hfar, harrives⟩ := exists_arrival it stack hp hn hc hlow hhigh hpositive
    obtain ⟨fs, m', hrounds, hcursor, -⟩ := executes_guidedRounds hp hn hc htolerance k hfar
    obtain ⟨hmachine, -, -⟩ := run_of_executes hrounds
    have hnear : m'.turtle.position.dist n.point ≤ p.guidance.proximityTolerance := by
      unfold FarAfter at harrives
      rw [hmachine] at harrives
      simpa using harrives
    obtain ⟨hfork, -, -⟩ := run_of_executes (hrounds.append (executes_considerData it _ stack))
    rcases (becomes_of_steer m' p.skeleton p.guidance).of_children (hcursor ▸ hn) hc with ⟨-, hcopies⟩ | ⟨hnot, -⟩
    · exact ⟨k, m', _, hfar, hmachine, hnear, hfork, by simpa using hcopies⟩
    · exact absurd hnear hnot

/-- A member that goes too far by half at every round: it is above its node behind the first and below it behind the
second, and forks in the end. -/
theorem rounds_approach_overshoot :
    let s : Skeleton ℝ := ⟨#[⟨⟨0, 0, 8⟩, [1]⟩, ⟨⟨0, 0, 9⟩, []⟩]⟩
    let p : Population ℝ := .ofTurtle s ⟨1, 3 / 2⟩ (.ofConfig .standard)
    let it : Interpreter ℝ := .standard
    (∃ n, s.node? Skeleton.root = some n ∧ n.children ≠ []) ∧ (0 : ℝ) ≤ p.guidance.proximityTolerance ∧
      (∀ i < 2, it.FarAfter p [] ⟨0, 0, 8⟩ i) ∧
      (∃ m', (it.run (guidedRounds 1) ⟨p, []⟩).machine = ⟨{ p with members := [m'] }, []⟩ ∧
        m'.turtle.position = ⟨0, 0, 12⟩) ∧
      (∃ m', (it.run (guidedRounds 2) ⟨p, []⟩).machine = ⟨{ p with members := [m'] }, []⟩ ∧
        m'.turtle.position = ⟨0, 0, 6⟩) ∧
      ∃ k copy, (it.run (guidedRounds k ++ [.bare .considerData]) ⟨p, []⟩).machine =
        ⟨{ p with members := [copy] }, []⟩ ∧ copy.cursor = 1 := by
  intro s p it
  let m : Member ℝ := ⟨.ofConfig .standard, 0, 0.5⟩
  let n : Node ℝ := ⟨⟨0, 0, 8⟩, [1]⟩
  have hp : p.members = [m] := rfl
  have hn : s.node? 0 = some n := rfl
  have hc : n.children ≠ [] := List.cons_ne_nil _ _
  have htolerance : (0 : ℝ) ≤ p.guidance.proximityTolerance := zero_le_one
  obtain ⟨happroach, harrive⟩ := rounds_approach it [] hp hn hc htolerance
  have hstart : m.turtle.position.dist n.point = 8 := by
    have hway : m.turtle.position - n.point = (unitZ : Vec ℝ) * (-8 : ℝ) := by
      ext <;> simp [m, n, Turtle.ofConfig, TurtleConfig.standard, unitZ]
    have hunit : (unitZ : Vec ℝ).length = 1 := length_eq_one_iff.mpr (by simp [unitZ, Vec.dot])
    rw [Vec.dist, hway, length_mul, hunit]
    norm_num
  have hfar₀ : it.FarAfter p [] n.point 0 := by
    rw [farAfter_iff hp hn hc htolerance (by simp), hstart]
    norm_num [p, Population.ofTurtle]
  have hfar₁ : it.FarAfter p [] n.point 1 := by
    rw [farAfter_iff hp hn hc htolerance (by simpa using hfar₀), hstart]
    norm_num [p, Population.ofTurtle, abs_of_neg]
  have hfar : ∀ i < 2, it.FarAfter p [] n.point i := by
    intro i hi
    obtain rfl | rfl : i = 0 ∨ i = 1 := by omega
    · exact hfar₀
    · exact hfar₁
  obtain ⟨above, -, habove, -, hover, -⟩ := happroach 1 (by simpa using hfar₀)
  obtain ⟨below, -, hbelow, -, hunder, -⟩ := happroach 2 hfar
  obtain ⟨k, m', group, -, -, -, hfork, hcopies⟩ :=
    harrive (by norm_num [p, Population.ofTurtle]) (by norm_num [p, Population.ofTurtle]) one_pos
  have hchildren : (n.children.filter fun id => (p.skeleton.node? id).isSome) = [1] := rfl
  rw [hchildren] at hcopies
  obtain ⟨copy, _, ⟨child, -, rfl⟩, hnil, rfl⟩ := List.forall₂_cons_left_iff.mp hcopies
  obtain rfl := List.forall₂_nil_left_iff.mp hnil
  refine ⟨⟨n, hn, hc⟩, htolerance, hfar, ⟨above, habove, ?_⟩, ⟨below, hbelow, ?_⟩, k, _, hfork, rfl⟩
  · rw [hover]
    ext <;> norm_num [m, n, p, Population.ofTurtle, Turtle.ofConfig, TurtleConfig.standard]
  · rw [hunder]
    ext <;> norm_num [m, n, p, Population.ofTurtle, Turtle.ofConfig, TurtleConfig.standard]

end Exact

end Foliage
