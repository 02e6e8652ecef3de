import Foliage.Preset.Bush
import Foliage.Preset.Guided
import Foliage.Preset.Palm
import Foliage.Preset.Tree
import Foliage.Proofs.Derivation.Rewriting
import Foliage.Proofs.Rule.Acceptance

/-!
# What the presets write

The rules of a bush and of a crown are written in notation. `bushRules_eq` and `frondRules_eq` say what is read there,
put together from the parts that the plants have: boughs, stalks and leaves, bent segments with their leaflets.

Every output of the four presets is a balanced program of nesting one (`nests_bushRead`, `nests_frondRead`,
`nests_tree`, `nests_halve`, `nests_guidedTrunk`), and the weights of the stochastic ones are accepted as doubles
(`acceptable_bush`, `acceptable_frond`).
-/

namespace Foliage.Preset

variable {K : Type}

/-- The output of a rule can be checked by computation. -/
theorem nests_mk {k : Nat} {tag : Tag} {weight : K} {production : Production K} (ht : tag ≠ .push ∧ tag ≠ .pop)
    (h : ∀ x, decide (Closes k 0 (production x)) = true) : Rule.Nests k ⟨tag, weight, production⟩ :=
  ⟨ht, fun x _ => of_decide_eq_true (h x)⟩

variable [Scalar K]

/-! ## What is read -/

/-- Several rolls to the right. -/
def rolls (n : Nat) : List (Symbol K) := .replicate n (.bare (.turn .rollRight))

/-- A bough of a bush, which bends down, has a leaf and ends in a bud. -/
def bough (segment : List (Symbol K)) : List (Symbol K) :=
  branch (.bare (.turn .pitchDown) :: segment ++ [bud 'L', bud 'A'])

/-- A flower stalk of a bush. -/
def stalk : List (Symbol K) := branch [.bare .forward, bud 'B', bud 'A']

/-- Half of the outline of a leaf. -/
def leafSide : List (Symbol K) :=
  [.bare (.turn .yawRight), .bare .skip, .bare (.turn .yawLeft), .bare .skip, .bare (.turn .yawLeft), .bare .skip]

/-- The leaf of a bush: two sides with half a turn between them. -/
def leaf : List (Symbol K) :=
  branch (.bare (.turn .pitchUp) :: .bare (.turn .pitchUp) :: .bare .startPoly :: leafSide
    ++ .bare (.turn .yawRight) :: .ofAmount (.turn .yawLeft) Scalar.pi :: leafSide ++ [.bare .endPoly])

/-- The rules of a bush as they are read. -/
def bushRead : List (Rule K) := [
  .constant (.nonterminal 'A') 0.34 (bough [.bare .forward] ++ rolls 5 ++ bough [.bare .forward] ++ rolls 7 ++ stalk),
  .constant (.nonterminal 'A') 0.33 (bough [] ++ rolls 5 ++ bough [.bare .forward] ++ rolls 7 ++ stalk),
  .constant (.nonterminal 'A') 0.33 (bough [.bare .forward] ++ rolls 5 ++ bough []),
  .constant .forward 1 (bud 'S' :: rolls 5 ++ [.bare .forward]),
  .constant (.nonterminal 'S') 1 [.bare .forward, bud 'L'],
  .constant (.nonterminal 'L') 1 leaf,
  .constant (.nonterminal 'B') 1 (branch [.bare (.turn .yawRight), .bare .forward, .bare .ornament])]

/-- The rules of a bush as a set. -/
def bushSet : RuleSet K := .ofRules .stochastic bushRead

/-- A leaflet of a frond. -/
def leaflet (side : Turn) : List (Symbol K) := branch (List.replicate 3 (.bare (.turn side)) ++ [.bare .forward])

/-- A bent segment of a frond with its pair of leaflets. -/
def frondSegment (bend : Turn) : List (Symbol K) :=
  .bare (.turn bend) :: .bare .forward :: leaflet .yawLeft ++ leaflet .yawRight

/-- The rules of a crown as they are read. -/
def frondRead (angles : List K) : List (Rule K) := [
  .constant (.nonterminal 'C') 1 (crown angles),
  .constant (.nonterminal 'I') 0.33 (frondSegment .pitchDown ++ [bud 'L']),
  .constant (.nonterminal 'I') 0.33 (frondSegment .pitchUp ++ [bud 'L']),
  .constant (.nonterminal 'I') 0.34 (List.replicate 3 (.bare (.turn .pitchUp)) ++ [bud 'L']),
  .constant (.nonterminal 'L') 1 (frondSegment .pitchDown ++ [bud 'L'])]

theorem bushRules_eq [Numeral K] : bushRules (K := K) = .ok bushRead := by
  with_unfolding_all rfl

theorem frondRules_eq [Numeral K] (angles : List K) : frondRules angles = .ok (frondRead angles) := by
  with_unfolding_all rfl

/-! ## Nesting -/

theorem nests_bushRead : ∀ r ∈ bushRead (K := K), r.Nests 1 := by
  simp only [bushRead, List.forall_mem_cons]
  refine ⟨?_, ?_, ?_, ?_, ?_, ?_, ?_, nofun⟩
  all_goals exact nests_mk (by decide) fun _ => rfl

/-- A crown opens a bracket for one frond at a time. -/
theorem closes_crown (angles : List K) : Closes 1 0 (crown angles) := by
  have hbend : Closes 1 0 ([.ofAmount (.turn .pitchDown) Scalar.halfPi] : List (Symbol K)) := of_decide_eq_true rfl
  have hfronds : Closes 1 0 (angles.flatMap fun angle => .ofAmount (.turn .yawRight) angle :: branch [bud 'I']) :=
    closes_flatMap fun angle _ => of_decide_eq_true rfl
  exact hbend.append hfronds (Nat.le_refl 1)

theorem nests_frondRead (angles : List K) : ∀ r ∈ frondRead angles, r.Nests 1 := by
  simp only [frondRead, List.forall_mem_cons]
  refine ⟨nests_mk (by decide) fun _ => decide_eq_true (closes_crown angles), ?_, ?_, ?_, ?_, nofun⟩
  all_goals exact nests_mk (by decide) fun _ => rfl

theorem nests_tree (p : TreeParams K) : ∀ r ∈ p.rules, r.Nests 1 := by
  simp only [TreeParams.rules, List.forall_mem_cons]
  refine ⟨?_, ?_, ?_, nofun⟩
  all_goals exact nests_mk (by decide) fun _ => rfl

theorem nests_halve (p : PalmParams K) : Rule.Nests 1 ⟨.trunk, 1, p.halve⟩ := nests_mk (by decide) fun _ => rfl

theorem nests_guidedTrunk : (guidedTrunk : Rule K).Nests 1 := nests_mk (by decide) fun _ => rfl

/-! ## Weights -/

theorem acceptable_bush : acceptable ((bushRead (K := Float)).map Rule.share) = true := by
  decide

/-- The rules of a crown beside a rule for the trunk. -/
theorem acceptable_frond (angles : List Float) {trunk : Rule Float} (h : trunk.share = (.trunk, 1)) :
    acceptable ((frondRead angles ++ [trunk]).map Rule.share) = true := by
  have hshares : (frondRead angles ++ [trunk]).map Rule.share =
      [(.nonterminal 'C', 1), (.nonterminal 'I', 0.33), (.nonterminal 'I', 0.33), (.nonterminal 'I', 0.34),
        (.nonterminal 'L', 1), (.trunk, 1)] := by
    rw [List.map_append, List.map_singleton, h]
    rfl
  rw [hshares]
  decide

end Foliage.Preset
