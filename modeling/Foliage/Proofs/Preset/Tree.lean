import Foliage.Proofs.Derivation.Coverage
import Foliage.Proofs.Preset.Outputs
import Foliage.Proofs.Turtle.Segments

/-!
# What a tree amounts to

Every rule of a tree puts a limb in place of a bud (`IsLimb`): one segment, four symbols that turn and branch, and two
buds, one of them in a bracket. So every generation doubles the buds, and each bud brings with it one segment and four
other symbols; a bud in as many brackets as there are generations is always left (`IsTree`, `isTree_step`). The counts
of the drawing follow, whatever the parameters are (`tree_counts`).
-/

namespace Foliage.Preset

variable {K : Type}

/-- The tags of a tree. -/
def treeTags : List Tag :=
  [.forward, .turn .yawLeft, .turn .yawRight, .turn .pitchDown, .turn .rollRight, .horiz, .push, .pop,
    .nonterminal 'A', .nonterminal 'B', .nonterminal 'C']

/-- What takes the place of a bud. -/
structure IsLimb (ys : List (Symbol K)) : Prop where
  tags : ∀ y ∈ ys, y.tag ∈ treeTags
  buds : buds ys = 2
  others : ys.countP (fun y => !y.tag.isNonterminal) = 5
  tubes : tubes ys = 1
  saves : pushes ys = 1
  restores : pops ys = 1
  /-- One of the buds is in the bracket. -/
  inner : ∃ pre bud post, ys = pre ++ bud :: post ∧ bud.tag.isNonterminal = true ∧ pushes pre = pops pre + 1

/-- A tree after `n` generations. -/
structure IsTree (n : Nat) (xs : List (Symbol K)) : Prop where
  tags : ∀ x ∈ xs, x.tag ∈ treeTags
  buds : buds xs = 2 ^ n
  others : xs.countP (fun x => !x.tag.isNonterminal) + 5 = 5 * 2 ^ n
  tubes : tubes xs + 1 = 2 ^ n
  /-- One of the buds is in `n` brackets. -/
  inner : ∃ pre bud post, xs = pre ++ bud :: post ∧ bud.tag.isNonterminal = true ∧ pushes pre = pops pre + n

theorem atMostTubes_of_mem_treeTags {tag : Tag} (h : tag ∈ treeTags) : tag.atMostTubes = true := by
  revert tag
  decide

variable [Scalar K] {p : TreeParams K}

def TreeParams.ruleSet (p : TreeParams K) : RuleSet K := .ofRules .deterministic p.rules

/-! ## One generation -/

theorem isLimb_axis (x : Symbol K) : IsLimb (p.axis x) where
  tags := by simp [TreeParams.axis, branch, treeTags, Symbol.bare, Symbol.ofAmount]
  buds := rfl
  others := rfl
  tubes := rfl
  saves := rfl
  restores := rfl
  inner := ⟨(p.axis x).take 3, _, _, rfl, rfl, rfl⟩

theorem isLimb_lateral {aside : Turn} (haside : aside = .yawLeft ∨ aside = .yawRight) {next : Char}
    (hnext : next = 'B' ∨ next = 'C') (x : Symbol K) : IsLimb (p.lateral aside next x) where
  tags := by
    rcases haside with rfl | rfl <;> rcases hnext with rfl | rfl <;>
      simp [TreeParams.lateral, branch, treeTags, Symbol.bare, Symbol.ofAmount]
  buds := rfl
  others := rfl
  tubes := rfl
  saves := rfl
  restores := rfl
  inner := ⟨(p.lateral aside next x).take 4, _, _, rfl, rfl, rfl⟩

theorem isLimb_of_mem_rules :
    ∀ r ∈ p.rules, r.tag.isNonterminal = true ∧ ∀ x : Symbol K, IsLimb (r.production x) := by
  simp only [TreeParams.rules, List.forall_mem_cons]
  exact ⟨⟨rfl, isLimb_axis⟩, ⟨rfl, isLimb_lateral (.inr rfl) (.inr rfl)⟩, ⟨rfl, isLimb_lateral (.inl rfl) (.inl rfl)⟩,
    List.forall_mem_nil _⟩

/-- A generation puts a limb in place of every bud and keeps everything else. -/
theorem applies_tree {x : Symbol K} {ys : List (Symbol K)} (hx : x.tag ∈ treeTags) (h : p.ruleSet.Applies x ys) :
    (x.tag.isNonterminal = false ∧ ys = [x]) ∨ (x.tag.isNonterminal = true ∧ IsLimb ys) := by
  rcases h with ⟨hnone, rfl⟩ | ⟨r, hr, rfl⟩
  -- every bud of a tree has a rule
  · refine .inl ⟨?_, rfl⟩
    have hruled : ∀ tag ∈ treeTags, tag ∉ [Tag.nonterminal 'A', .nonterminal 'B', .nonterminal 'C'] →
        tag.isNonterminal = false := by
      decide
    exact hruled _ hx (matching_eq_nil_iff.mp hnone)
  · obtain ⟨hr, htag⟩ := mem_matching.mp hr
    obtain ⟨hbud, hlimb⟩ := isLimb_of_mem_rules r hr
    exact .inr ⟨htag ▸ hbud, hlimb x⟩

/-- A kind of symbols of which a bud counts `b` and a limb `c` more gains `c` from every bud. -/
theorem countP_limbs (kind : Symbol K → Bool) (b c : Nat)
    (hbud : ∀ x : Symbol K, x.tag.isNonterminal = true → [x].countP kind = b)
    (hlimb : ∀ ys : List (Symbol K), IsLimb ys → ys.countP kind = b + c) {xs ys : List (Symbol K)}
    (hxs : ∀ x ∈ xs, x.tag ∈ treeTags) (h : p.ruleSet.Yields xs ys) : ys.countP kind = xs.countP kind + c * buds xs := by
  refine countP_yields h fun x hx zs hz => ?_
  rcases applies_tree (hxs x hx) hz with ⟨hkept, rfl⟩ | ⟨hgrown, hz⟩
  · simp [hkept]
  · rw [hbud x hgrown, hlimb zs hz]
    simp [hgrown]

/-- No bud is a bracket or draws. -/
theorem not_of_isNonterminal {tag : Tag} (h : tag.isNonterminal = true) :
    tag ≠ .push ∧ tag ≠ .pop ∧ tag.drawsTube = false := by
  cases tag with
  | nonterminal name => exact ⟨nofun, nofun, rfl⟩
  | _ => cases h

theorem pushes_limbs {xs ys : List (Symbol K)} (hxs : ∀ x ∈ xs, x.tag ∈ treeTags) (h : p.ruleSet.Yields xs ys) :
    pushes ys = pushes xs + 1 * buds xs :=
  countP_limbs _ 0 1 (fun x hx => by simp [(not_of_isNonterminal hx).1]) (fun _ hys => hys.saves) hxs h

theorem pops_limbs {xs ys : List (Symbol K)} (hxs : ∀ x ∈ xs, x.tag ∈ treeTags) (h : p.ruleSet.Yields xs ys) :
    pops ys = pops xs + 1 * buds xs :=
  countP_limbs _ 0 1 (fun x hx => by simp [(not_of_isNonterminal hx).2.1]) (fun _ hys => hys.restores) hxs h

/-- The bud that is deepest in brackets leaves one that is a bracket deeper. -/
theorem inner_step {n : Nat} {xs ys : List (Symbol K)} (hxs : IsTree n xs) (h : p.ruleSet.Yields xs ys) :
    ∃ pre bud post, ys = pre ++ bud :: post ∧ bud.tag.isNonterminal = true ∧ pushes pre = pops pre + (n + 1) := by
  obtain ⟨pre, bud, post, rfl, hbud, hdepth⟩ := hxs.inner
  obtain ⟨us, vs, hus, hvs, rfl⟩ := yields_append_iff.mp h
  obtain ⟨limb, ws, hlimb, -, rfl⟩ := yields_cons_iff.mp hvs
  obtain ⟨hpre, hpost⟩ := List.forall_mem_append.mp hxs.tags
  rcases applies_tree (hpost bud List.mem_cons_self) hlimb with ⟨hkept, -⟩ | ⟨-, hlimb⟩
  · rw [hbud] at hkept
    cases hkept
  -- what stands before the bud gains as many saves as restores
  · obtain ⟨pre', bud', post', rfl, hbud', hdepth'⟩ := hlimb.inner
    refine ⟨us ++ pre', bud', post' ++ ws, by simp, hbud', ?_⟩
    rw [pushes_append, pops_append, pushes_limbs hpre hus, pops_limbs hpre hus]
    omega

/-- **A generation doubles the buds** and adds one level of brackets. -/
theorem isTree_step {n : Nat} {xs ys : List (Symbol K)} (hxs : IsTree n xs) (h : p.ruleSet.Yields xs ys) :
    IsTree (n + 1) ys where
  tags := by
    refine forall_mem_of_yields (P := fun x => x.tag ∈ treeTags) h (fun x zs hx hz => ?_) hxs.tags
    rcases applies_tree hx hz with ⟨-, rfl⟩ | ⟨-, hz⟩
    · exact List.forall_mem_singleton.mpr hx
    · exact hz.tags
  buds := by
    have hcount : buds ys = buds xs + 1 * buds xs :=
      countP_limbs _ 1 1 (fun x hx => by simp [hx]) (fun _ hys => hys.buds) hxs.tags h
    rw [hcount, hxs.buds]
    omega
  others := by
    have hcount := countP_limbs (fun x => !x.tag.isNonterminal) 0 5 (fun x hx => by simp [hx]) (fun _ hys => hys.others)
      hxs.tags h
    have hothers := hxs.others
    rw [hcount, hxs.buds]
    omega
  tubes := by
    have hcount : tubes ys = tubes xs + 1 * buds xs :=
      countP_limbs _ 0 1 (fun x hx => by simp [(not_of_isNonterminal hx).2.2]) (fun _ hys => hys.tubes) hxs.tags h
    have htubes := hxs.tubes
    rw [hcount, hxs.buds]
    omega
  inner := inner_step hxs h

/-! ## All generations -/

omit [Scalar K] in
theorem isTree_bud (l : K) : IsTree 0 [.ofAmount (.nonterminal 'A') l] where
  tags := by simp [Symbol.ofAmount, treeTags]
  buds := rfl
  others := rfl
  tubes := rfl
  inner := ⟨[], _, _, rfl, rfl, rfl⟩

theorem isTree_derive {σ : Type} [RandomSource σ] (p : TreeParams K) (s : σ) :
    IsTree p.depth (Derivation.evolve p.ruleSet p.depth [.ofAmount (.nonterminal 'A') p.initialLength] s).symbols :=
  derive_yields (fun _ => covers_of_deterministic rfl _) (isTree_bud p.initialLength) (fun _ _ _ => isTree_step) p.depth

/-- The drawing of a tree after `n` generations. -/
theorem draw_of_isTree {n : Nat} {xs : List (Symbol K)} (hxs : IsTree n xs) (hcloses : Closes n 0 xs)
    {it : Interpreter K} (hlenient : it.strict = false) (hlimit : n ≤ it.maxStackDepth) (turtle : Turtle K) :
    ∃ drawing, (it.draw xs turtle).1 = .ok drawing ∧
      drawing.report = ⟨5 * (2 ^ n - 1), 4 * (2 ^ n - 1), 2 ^ n, n⟩ ∧ drawing.mesh.IsQuads (4 * (2 ^ n - 1)) := by
  have htubes : tubes xs = 2 ^ n - 1 := by
    have := hxs.tubes
    omega
  have htally : Tally n (2 ^ n) (2 ^ n - 1) xs :=
    ⟨fun x hx => atMostTubes_of_mem_treeTags (hxs.tags x hx), hcloses, hxs.buds, htubes⟩
  obtain ⟨fs, m', h, drawing, hdrawing, hreport, hmesh⟩ := draw_of_tally htally hlenient hlimit turtle
  have hdeepest : deepest 0 xs = n := by
    obtain ⟨pre, bud, post, rfl, -, hdepth⟩ := hxs.inner
    refine deepest_of_closes h rfl hcloses (i := pre.length) ?_
    rwa [List.take_left]
  have hothers : xs.countP (fun x => !x.tag.isNonterminal) = 5 * (2 ^ n - 1) := by
    have := hxs.others
    omega
  rw [hothers, hdeepest] at hreport
  exact ⟨drawing, hdrawing, hreport, hmesh⟩

/-- **What a tree amounts to.** A tree can be built for all parameters. From every source it is generated without a
draw, and by every lenient interpreter that allows a stack as deep as it has generations, whatever ornament that has:
the drawing has counted five executed symbols and four faces for each segment, and the buds that are left, and is a mesh
of quads. After `d` generations there are `2 ^ d - 1` segments and `2 ^ d` buds, and the stack was `d` deep. -/
theorem tree_counts (p : TreeParams K) :
    ∃ preset, tree p = .ok preset ∧
      ∀ (σ : Type) [RandomSource σ] (s : σ) (it : Interpreter K), it.strict = false → p.depth ≤ it.maxStackDepth →
        let plant := preset.generate it s
        plant.source = s ∧
          ∃ drawing, plant.drawing = .ok drawing ∧
            drawing.report = {
              executed := 5 * (2 ^ p.depth - 1)
              faces := 4 * (2 ^ p.depth - 1)
              unresolved := 2 ^ p.depth
              maxDepth := p.depth } ∧
            drawing.mesh.IsQuads (4 * (2 ^ p.depth - 1)) := by
  refine ⟨_, rfl, fun σ _ s it hlenient hlimit => ⟨source_of_deterministic rfl _ _ _, ?_⟩⟩
  have hnests : p.ruleSet.Nests 1 := nests_tree p
  refine draw_of_isTree (isTree_derive p s) ?_ hlenient hlimit _
  exact closes_derive_one hnests p.depth (of_decide_eq_true rfl) s

/-- The standard tree, drawn by the standard interpreter: its vertices fit into words, so that all quads are read back. -/
theorem tree_counts_standard :
    letI : RandomSource UInt64 := ⟨fun s => (s, s + 1)⟩
    ∃ preset, tree (.standard : TreeParams Float) = .ok preset ∧
      (preset.generate .standard (7 : UInt64)).source = 7 ∧
      ∃ drawing, (preset.generate .standard (7 : UInt64)).drawing = .ok drawing ∧
        drawing.report = ⟨5115, 4092, 1024, 10⟩ ∧
        ∀ i < 4092, ∃ face, drawing.mesh.face? i = some face ∧ face.length = 4 := by
  let _ : RandomSource UInt64 := ⟨fun s => (s, s + 1)⟩
  obtain ⟨preset, hbuilt, hgrown⟩ := tree_counts (.standard : TreeParams Float)
  obtain ⟨hsource, drawing, hdrawing, hreport, hmesh⟩ := hgrown UInt64 7 .standard rfl (by decide)
  refine ⟨preset, hbuilt, hsource, drawing, hdrawing, hreport, hmesh.face ?_⟩
  rw [hmesh.vertexCount]
  decide

end Foliage.Preset
