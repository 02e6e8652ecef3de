import Foliage.Proofs.Interpreter.Lenient
import Foliage.Proofs.Ornament.Stamps
import Foliage.Proofs.Preset.Outputs

/-!
# Presets are built and grow

A grammar that starts without brackets, and whose rules have outputs of nesting one, derives balanced programs that
nest no deeper than it has generations. A lenient interpreter that allows this depth draws each of them and ends with
nothing saved (`drawn_of_nests`). The four presets are built for all parameters and all draws, and have such grammars
(`presets_grow`).
-/

namespace Foliage

variable {τ σ K : Type}

variable [Scalar K]

/-- No ornament is attached, or one that has every vertex that its triangles name. -/
def Interpreter.Furnished (it : Interpreter K) : Prop :=
  it.ornament = none ∨ ∃ o : Ornament K, o.Whole ∧ it.ornament = some o.stamp

theorem Interpreter.Furnished.total {it : Interpreter K} (h : it.Furnished) {s : Stamp K} (hs : it.ornament = some s) :
    s.Total := by
  rcases h with hnone | ⟨o, ho, hsome⟩
  · rw [hnone] at hs
    cases hs
  · obtain rfl := Option.some.inj (hsome.symm.trans hs)
    exact total_of_whole ho

/-- A balanced program whose depth never exceeds `depth`, and its plants: every lenient interpreter that allows this
depth draws the program, and the run behind the drawing ends with its turtle and nothing saved. -/
structure DrawnWithin [TurtleLike τ K] (depth : Nat) (program : List (Symbol K)) (turtle : τ)
    (plant : Interpreter K → Plant τ σ K) : Prop where
  balanced : Balanced program
  nesting : ∀ i, depthAt 0 program i ≤ depth
  drawn : ∀ it : Interpreter K, it.strict = false → depth ≤ it.maxStackDepth → it.Furnished →
    (plant it).symbols = program ∧
      ∃ drawing, (plant it).drawing = .ok drawing ∧ (it.run program ⟨turtle, []⟩).machine = ⟨drawing.turtle, []⟩

/-- From every source of draws, the preset derives a balanced program of the given depth and draws it. -/
def Preset.GrowsWithin (p : Preset K) (depth : Nat) : Prop :=
  ∀ (σ : Type) [RandomSource σ] (s : σ),
    DrawnWithin depth (p.grammar.derive s).symbols (.ofConfig p.turtle : Turtle K) fun it => p.generate it s

/-- The same for a preset that is drawn with its population. -/
def GuidedPreset.GrowsWithin (p : GuidedPreset K) (depth : Nat) : Prop :=
  ∀ (σ : Type) [RandomSource σ] (s : σ),
    DrawnWithin depth (p.grammar.derive s).symbols p.population fun it => p.generate it s

/-! ## Growing -/

/-- The plants of a grammar with outputs of nesting one. -/
theorem drawn_of_nests [RandomSource σ] [TurtleLike τ K] {g : Grammar K} (hrules : g.rules.Nests 1)
    (hstart : Closes 0 0 g.start) (hstamp : ∀ s : Stamp K, s.Total → ∀ t : τ, (TurtleLike.stamp? t s).isSome)
    (turtle : τ) (s : σ) : DrawnWithin g.depth (g.derive s).symbols turtle fun it => g.grow it turtle s := by
  have hcloses : Closes g.depth 0 (g.derive s).symbols := closes_derive_one hrules g.depth hstart s
  obtain ⟨hb, hd⟩ := closes_zero_iff.mp hcloses
  refine ⟨hb, hd, fun it hl hdepth hornament => ?_⟩
  obtain ⟨⟨report, hr⟩, hstack⟩ := run_of_closes hcloses turtle hdepth hl fun _ hs =>
    hstamp _ (hornament.total hs)
  exact ⟨rfl, _, draw_of_run hr, congrArg (Machine.mk _) hstack⟩

theorem Preset.grows {p : Preset K} (hrules : p.grammar.rules.Nests 1) (hstart : Closes 0 0 p.grammar.start) :
    p.GrowsWithin p.grammar.depth :=
  fun _ _ s => drawn_of_nests hrules hstart (fun _ h t => isSome_turtle_stamp h t) _ s

theorem GuidedPreset.grows {p : GuidedPreset K} (hrules : p.grammar.rules.Nests 1)
    (hstart : Closes 0 0 p.grammar.start) : p.GrowsWithin p.grammar.depth := by
  intro σ _ s
  have hdrawn := drawn_of_nests hrules hstart (fun _ h t => isSome_population_stamp h t) p.population s
  refine ⟨hdrawn.balanced, hdrawn.nesting, fun it hl hdepth hornament => ?_⟩
  obtain ⟨-, drawing, hdrawing, hmachine⟩ := hdrawn.drawn it hl hdepth hornament
  refine ⟨?_, drawing, ?_, hmachine⟩
  · simp only [GuidedPreset.generate, hdrawing]
    rfl
  · simp only [GuidedPreset.generate, hdrawing]

/-! ## The presets -/

namespace Preset

theorem ruleSet_of_acceptable {rules : List (Rule K)} (h : acceptable (rules.map Rule.share) = true) :
    ruleSet .stochastic (.ok rules) = .ok (.ofRules .stochastic rules) := by
  simp only [ruleSet, build_of_acceptable h]

/-- What a bush is built of. -/
theorem bush_eq (p : BushParams Float) :
    bush p = .ok ⟨⟨[bud 'A'], bushSet, p.depth⟩, .ofPen p.stepSize p.stepAngle p.radius⟩ := by
  rw [bush, bushRules_eq, ruleSet_of_acceptable acceptable_bush]
  rfl

theorem bush_grows (p : BushParams Float) : ∃ preset, bush p = .ok preset ∧ preset.GrowsWithin p.depth :=
  ⟨_, bush_eq p, Preset.grows nests_bushRead (of_decide_eq_true rfl)⟩

theorem tree_grows (p : TreeParams K) : ∃ preset, tree p = .ok preset ∧ preset.GrowsWithin p.depth :=
  ⟨_, rfl, Preset.grows (nests_tree p) (of_decide_eq_true rfl)⟩

/-- The rules of a crown beside a rule for the trunk. -/
theorem nests_crownAndTrunk (angles : List K) {trunk : Rule K} (h : trunk.Nests 1) :
    RuleSet.Nests 1 (.ofRules .stochastic (frondRead angles ++ [trunk])) := by
  intro r hr
  rcases List.mem_append.mp hr with hr | hr
  · exact nests_frondRead angles r hr
  · rw [List.mem_singleton.mp hr]
    exact h

theorem ruleSet_crownAndTrunk (angles : List Float) (trunk : Rule Float) (h : trunk.share = (.trunk, 1)) :
    ruleSet .stochastic ((frondRules angles).map (· ++ [trunk])) =
      .ok (.ofRules .stochastic (frondRead angles ++ [trunk])) := by
  rw [frondRules_eq]
  exact ruleSet_of_acceptable (acceptable_frond angles h)

section Draws

variable [RandomSource σ]

theorem palm_grows (p : PalmParams Float) (s : σ) :
    ∃ preset, (palm p s).preset = .ok preset ∧ preset.GrowsWithin p.depth := by
  have hrules := ruleSet_crownAndTrunk (LeafAngles.generate p.leafSpacing p.leafCount s).angles.toList
    ⟨.trunk, 1, p.halve⟩ rfl
  refine ⟨_, congrArg (Except.map _) hrules, ?_⟩
  exact Preset.grows (nests_crownAndTrunk _ (nests_halve p)) (of_decide_eq_true rfl)

theorem guided_grows (p : GuidedParams Float) (s : σ) :
    ∃ preset, (guided p s).preset = .ok preset ∧ preset.GrowsWithin p.depth := by
  have hrules := ruleSet_crownAndTrunk (LeafAngles.generate p.leafSpacing p.leafCount s).angles.toList
    guidedTrunk rfl
  refine ⟨_, congrArg (Except.map _) hrules, ?_⟩
  exact GuidedPreset.grows (nests_crownAndTrunk _ nests_guidedTrunk) (of_decide_eq_true rfl)

/-- **The presets are built and grow.** For all parameters and all draws a bush, a tree, a palm and a guided plant can
be built. From any source of draws, such a preset derives a balanced program that never nests deeper than it has
generations, and generates a drawing of it with every lenient interpreter that allows this depth and has no ornament
or a whole one; nothing is saved at the end. -/
theorem presets_grow :
    (∀ p : BushParams Float, ∃ preset, bush p = .ok preset ∧ preset.GrowsWithin p.depth) ∧
    (∀ p : TreeParams Float, ∃ preset, tree p = .ok preset ∧ preset.GrowsWithin p.depth) ∧
    (∀ (p : PalmParams Float) (s : σ), ∃ preset, (palm p s).preset = .ok preset ∧ preset.GrowsWithin p.depth) ∧
    (∀ (p : GuidedParams Float) (s : σ), ∃ preset, (guided p s).preset = .ok preset ∧ preset.GrowsWithin p.depth) :=
  ⟨bush_grows, tree_grows, palm_grows, guided_grows⟩

end Draws

/-- A guided plant with the standard parameters, drawn by the standard interpreter. -/
theorem presets_grow_standard :
    letI : RandomSource UInt64 := ⟨fun s => (s, s + 1)⟩
    ∃ preset, (guided (.standard : GuidedParams Float) (0 : UInt64)).preset = .ok preset ∧
      ∃ drawing, (preset.generate .standard (0 : UInt64)).drawing = .ok drawing := by
  let _ : RandomSource UInt64 := ⟨fun s => (s, s + 1)⟩
  obtain ⟨preset, hbuilt, hgrows⟩ := presets_grow.2.2.2 .standard (0 : UInt64)
  obtain ⟨-, drawing, hdrawing, -⟩ := (hgrows UInt64 0).drawn .standard rfl (by decide) (.inl rfl)
  exact ⟨preset, hbuilt, drawing, hdrawing⟩

end Preset

end Foliage
