import Foliage.Proofs.Derivation.Coverage
import Foliage.Proofs.LeafAngles
import Foliage.Proofs.Preset.Growth
import Foliage.Proofs.Turtle.Segments

/-!
# Crowned plants

A palm and a guided plant are a trunk below a crown. Draws below one leave no mass over, so that every bud of a frond is
replaced in every generation (`covers_crownRules`). After `n` generations each leaf has one of three fronds
(`frondForms`), at the angle that was drawn for it when the plant was built, and the trunk has doubled `n` times
(`derive_crowned`). What the trunk and the fronds count, the drawing of a palm counts
(`tally_palm`).
-/

namespace Foliage

variable {σ ρ K : Type}

namespace Preset

/-! ## Fronds and crowns -/

/-- As many bent segments as given, with their leaflets. -/
def rachis (n : Nat) : List (Symbol K) := (List.replicate n (frondSegment .pitchDown)).flatten

/-- A bent segment as the rules write it. -/
example : Notation.parse "&F[+++F][---F]" = .ok (frondSegment .pitchDown : List (Symbol Float)) := by
  with_unfolding_all rfl

/-- The fronds that there can be after so many generations of a plant: none before the crown has opened, a bud when it
opens, and then one that has begun in one of three ways and has grown at its tip ever since. -/
def frondForms : Nat → List (List (Symbol K))
  | 0 => []
  | 1 => [[bud 'I']]
  | n + 2 => [
      rachis (n + 1) ++ [bud 'L'],
      frondSegment .pitchUp ++ rachis n ++ [bud 'L'],
      List.replicate 3 (.bare (.turn .pitchUp)) ++ rachis n ++ [bud 'L']]

/-- A leaf of a crown: its angle and its frond. -/
structure CrownLeaf (K : Type) where
  angle : K
  frond : List (Symbol K)

/-- The turn to a leaf, and its frond in brackets. -/
def CrownLeaf.program (leaf : CrownLeaf K) : List (Symbol K) :=
  .ofAmount (.turn .yawRight) leaf.angle :: branch leaf.frond

/-- A right angle downward, then all leaves. -/
def crownOf [Scalar K] (leaves : List (CrownLeaf K)) : List (Symbol K) :=
  .ofAmount (.turn .pitchDown) Scalar.halfPi :: leaves.flatMap CrownLeaf.program

/-- A plant after `n` generations: a trunk, and a crown with leaves at the given angles. -/
structure IsCrowned [Scalar K] (n : Nat) (angles : List K) (trunk : List (Symbol K)) (leaves : List (CrownLeaf K))
    (xs : List (Symbol K)) : Prop where
  program : xs = trunk ++ crownOf leaves
  angles : leaves.map CrownLeaf.angle = angles
  fronds : ∀ leaf ∈ leaves, leaf.frond ∈ frondForms n

/-- The three ways in which a frond begins. -/
def frondStarts : List (List (Symbol K)) :=
  [frondSegment .pitchDown, frondSegment .pitchUp, List.replicate 3 (.bare (.turn .pitchUp))]

theorem rachis_succ (n : Nat) : (rachis (n + 1) : List (Symbol K)) = frondSegment .pitchDown ++ rachis n := by
  rw [rachis, List.replicate_succ, List.flatten_cons]
  rfl

theorem rachis_succ' (n : Nat) : (rachis (n + 1) : List (Symbol K)) = rachis n ++ frondSegment .pitchDown := by
  rw [rachis, List.replicate_succ', List.flatten_append, List.flatten_singleton]
  rfl

/-- A frond that has begun is its start, the segments that it has grown since, and its tip. -/
theorem mem_frondForms_iff {n : Nat} {frond : List (Symbol K)} :
    frond ∈ frondForms (n + 2) ↔ ∃ start ∈ frondStarts, frond = start ++ rachis n ++ [bud 'L'] := by
  simp [frondForms, frondStarts, rachis_succ]

/-- The tags that fronds are made of, but for their buds. -/
def frondTags : List Tag :=
  [.forward, .turn .pitchUp, .turn .pitchDown, .turn .yawLeft, .turn .yawRight, .push, .pop]

theorem mem_frondTags_of_start : ∀ start ∈ (frondStarts : List (List (Symbol K))), ∀ x ∈ start, x.tag ∈ frondTags := by
  have h : (frondStarts : List (List (Symbol K))).all (fun start => start.all fun x => x.tag ∈ frondTags) = true := rfl
  simpa using h

theorem mem_frondTags_of_rachis (n : Nat) : ∀ x ∈ (rachis n : List (Symbol K)), x.tag ∈ frondTags := by
  intro x hx
  obtain ⟨segment, hsegment, hx⟩ := List.mem_flatten.mp hx
  rw [List.eq_of_mem_replicate hsegment] at hx
  exact mem_frondTags_of_start _ List.mem_cons_self x hx

/-! ## What a leaf counts -/

theorem branch_eq (body : List (Symbol K)) : branch body = [.bare .push] ++ (body ++ [.bare .pop]) := rfl

theorem closes_branch {k : Nat} {body : List (Symbol K)} (h : Closes k 0 body) : Closes (k + 1) 0 (branch body) := by
  refine (closes_cons_push rfl).mpr (h.append (m := 1) ?_ (Nat.le_refl _))
  exact (closes_cons_pop rfl).mpr ⟨Nat.succ_pos k, closes_nil.mpr rfl⟩

theorem Tally.branch {k b t : Nat} {body : List (Symbol K)} (h : Tally k b t body) : Tally (k + 1) b t (branch body) where
  tags := by
    refine List.forall_mem_cons.mpr ⟨rfl, List.forall_mem_append.mpr ⟨h.tags, ?_⟩⟩
    exact List.forall_mem_singleton.mpr rfl
  closes := closes_branch h.closes
  buds := by
    rw [branch_eq, buds_append, buds_append, h.buds]
    exact Nat.zero_add b
  tubes := by
    rw [branch_eq, tubes_append, tubes_append, h.tubes]
    exact Nat.zero_add t

theorem atMostTubes_of_frondTags {tag : Tag} (h : tag ∈ frondTags) : tag.atMostTubes = true := by
  revert tag
  decide

theorem tally_start : ∀ start ∈ (frondStarts : List (List (Symbol K))), Tally 1 0 3 start ∨ Tally 1 0 0 start := by
  intro start hstart
  have htags : ∀ x ∈ start, x.tag.atMostTubes = true :=
    fun x hx => atMostTubes_of_frondTags (mem_frondTags_of_start start hstart x hx)
  simp only [frondStarts, List.mem_cons, List.not_mem_nil, or_false] at hstart
  rcases hstart with rfl | rfl | rfl
  · exact .inl ⟨htags, of_decide_eq_true rfl, rfl, rfl⟩
  · exact .inl ⟨htags, of_decide_eq_true rfl, rfl, rfl⟩
  · exact .inr ⟨htags, of_decide_eq_true rfl, rfl, rfl⟩

theorem tally_rachis (n : Nat) : Tally 1 0 (3 * n) (rachis n : List (Symbol K)) := by
  induction n with
  | zero => exact ⟨nofun, of_decide_eq_true rfl, rfl, rfl⟩
  | succ n ih =>
    have hsegment : Tally 1 0 3 (frondSegment .pitchDown : List (Symbol K)) := by
      refine ⟨fun x hx => ?_, of_decide_eq_true rfl, rfl, rfl⟩
      exact atMostTubes_of_frondTags (mem_frondTags_of_start _ List.mem_cons_self x hx)
    rw [rachis_succ']
    exact ih.append hsegment (Nat.le_refl 1)

/-- **A frond that has begun** has one bud, and three tubes for each of its segments. -/
theorem tally_frond {n : Nat} {frond : List (Symbol K)} (h : frond ∈ frondForms (n + 2)) :
    Tally 1 1 (3 * (n + 1)) frond ∨ Tally 1 1 (3 * n) frond := by
  obtain ⟨start, hstart, rfl⟩ := mem_frondForms_iff.mp h
  have htip : Tally 1 1 0 ([bud 'L'] : List (Symbol K)) :=
    ⟨List.forall_mem_singleton.mpr rfl, of_decide_eq_true rfl, rfl, rfl⟩
  rcases tally_start start hstart with hstart | hstart
  · have hfrond := (hstart.append (tally_rachis n) (Nat.le_refl 1)).append htip (Nat.le_refl 1)
    rw [Nat.add_zero, Nat.add_comm 3] at hfrond
    exact .inl hfrond
  · have hfrond := (hstart.append (tally_rachis n) (Nat.le_refl 1)).append htip (Nat.le_refl 1)
    rw [Nat.add_zero, Nat.zero_add] at hfrond
    exact .inr hfrond

theorem tally_program {t : Nat} {leaf : CrownLeaf K} (h : Tally 1 1 t leaf.frond) : Tally 2 1 t leaf.program := by
  have hturn : Tally 0 0 0 [(.ofAmount (.turn .yawRight) leaf.angle : Symbol K)] :=
    ⟨List.forall_mem_singleton.mpr rfl, of_decide_eq_true rfl, rfl, rfl⟩
  have hprogram := hturn.append (Tally.branch h) (by decide)
  rw [Nat.zero_add, Nat.zero_add] at hprogram
  exact hprogram

/-- Leaves have the tubes of their fronds, and one bud each. -/
theorem tally_leaves {n : Nat} {leaves : List (CrownLeaf K)} (h : ∀ leaf ∈ leaves, leaf.frond ∈ frondForms (n + 2)) :
    Tally 2 leaves.length (leaves.map fun leaf => tubes leaf.frond).sum (leaves.flatMap CrownLeaf.program) := by
  induction leaves with
  | nil => exact ⟨nofun, of_decide_eq_true rfl, rfl, rfl⟩
  | cons leaf leaves ih =>
    obtain ⟨hleaf, hleaves⟩ := List.forall_mem_cons.mp h
    have hfrond : Tally 1 1 (tubes leaf.frond) leaf.frond := by
      rcases tally_frond hleaf with hfrond | hfrond
      · rwa [hfrond.tubes]
      · rwa [hfrond.tubes]
    rw [List.flatMap_cons, List.length_cons, Nat.add_comm, List.map_cons, List.sum_cons]
    exact (tally_program hfrond).append (ih hleaves) (Nat.le_refl 2)

variable [Scalar K] {angles : List K} {trunk : Production K}

/-- The rules of a plant with a crown. -/
def crownRules (angles : List K) (trunk : Production K) : RuleSet K :=
  .ofRules .stochastic (frondRead angles ++ [⟨.trunk, 1, trunk⟩])

/-- The tags that have rules in a plant with a crown. -/
def crownTags : List Tag := [.nonterminal 'C', .nonterminal 'I', .nonterminal 'L', .trunk]

/-! ## One generation -/

theorem not_governs {tag : Tag} (h : tag ∉ crownTags) : (crownRules angles trunk).matching tag = [] := by
  refine matching_eq_nil_iff.mpr ?_
  have htags : (crownRules angles trunk).rules.map Rule.tag =
      [.nonterminal 'C', .nonterminal 'I', .nonterminal 'I', .nonterminal 'I', .nonterminal 'L', .trunk] := rfl
  rw [htags]
  simpa [crownTags] using h

theorem kept_of_frondTags {xs zs : List (Symbol K)} (hxs : ∀ x ∈ xs, x.tag ∈ frondTags)
    (h : (crownRules angles trunk).Yields xs zs) : zs = xs := by
  have hfree : ∀ tag ∈ frondTags, tag ∉ crownTags := by
    decide
  exact (yields_kept_iff fun x hx => not_governs (hfree _ (hxs x hx))).mp h

theorem applies_trunk {x : Symbol K} (hx : x.tag = .trunk) {ys : List (Symbol K)}
    (h : (crownRules angles trunk).Applies x ys) : ys = trunk x := by
  refine (applies_of_single (r := ⟨.trunk, 1, trunk⟩) ?_).mp h
  rw [hx]
  rfl

theorem applies_crown {x : Symbol K} (hx : x.tag = .nonterminal 'C') {ys : List (Symbol K)}
    (h : (crownRules angles trunk).Applies x ys) : ys = crown angles := by
  refine (applies_of_single (r := .constant (.nonterminal 'C') 1 (crown angles)) ?_).mp h
  rw [hx]
  rfl

theorem applies_tip {ys : List (Symbol K)} (h : (crownRules angles trunk).Applies (bud 'L') ys) :
    ys = frondSegment .pitchDown ++ [bud 'L'] :=
  (applies_of_single (r := .constant (.nonterminal 'L') 1 (frondSegment .pitchDown ++ [bud 'L'])) rfl).mp h

/-- A frond that opens begins in one of the three ways. -/
theorem applies_opening {ys : List (Symbol K)} (h : (crownRules angles trunk).Applies (bud 'I') ys) :
    ∃ start ∈ frondStarts, ys = start ++ [bud 'L'] := by
  rcases h with ⟨hnone, -⟩ | ⟨r, hr, rfl⟩
  · cases hnone
  · have hrules : (crownRules angles trunk).matching (.nonterminal 'I') =
        [.constant (.nonterminal 'I') 0.33 (frondSegment .pitchDown ++ [bud 'L']),
          .constant (.nonterminal 'I') 0.33 (frondSegment .pitchUp ++ [bud 'L']),
          .constant (.nonterminal 'I') 0.34 (List.replicate 3 (.bare (.turn .pitchUp)) ++ [bud 'L'])] := rfl
    have hr : r ∈ (crownRules angles trunk).matching (.nonterminal 'I') := hr
    simp only [hrules, List.mem_cons, List.not_mem_nil, or_false] at hr
    rcases hr with rfl | rfl | rfl
    · exact ⟨_, .head _, rfl⟩
    · exact ⟨_, .tail _ (.head _), rfl⟩
    · exact ⟨_, .tail _ (.tail _ (.head _)), rfl⟩

/-- **A frond grows** at its tip. -/
theorem frond_step {n : Nat} {frond zs : List (Symbol K)} (hfrond : frond ∈ frondForms n)
    (h : (crownRules angles trunk).Yields frond zs) : zs ∈ frondForms (n + 1) := by
  match n with
  | 0 => cases hfrond
  | 1 =>
    obtain rfl := List.mem_singleton.mp hfrond
    obtain ⟨start, hstart, rfl⟩ := applies_opening (yields_singleton_iff.mp h)
    exact mem_frondForms_iff.mpr ⟨start, hstart, by simp [rachis]⟩
  | n + 2 =>
    obtain ⟨start, hstart, rfl⟩ := mem_frondForms_iff.mp hfrond
    obtain ⟨wood, tip, hwood, htip, rfl⟩ := yields_append_iff.mp h
    have hkept := kept_of_frondTags
      (List.forall_mem_append.mpr ⟨mem_frondTags_of_start start hstart, mem_frondTags_of_rachis n⟩) hwood
    refine mem_frondForms_iff.mpr ⟨start, hstart, ?_⟩
    rw [hkept, applies_tip (yields_singleton_iff.mp htip), rachis_succ']
    simp only [List.append_assoc]

/-- The leaves of a crown keep their angles, and their fronds grow. -/
theorem leaves_step {n : Nat} {leaves : List (CrownLeaf K)} (hfronds : ∀ leaf ∈ leaves, leaf.frond ∈ frondForms n)
    {zs : List (Symbol K)} (h : (crownRules angles trunk).Yields (leaves.flatMap CrownLeaf.program) zs) :
    ∃ leaves' : List (CrownLeaf K), leaves'.map CrownLeaf.angle = leaves.map CrownLeaf.angle ∧
      (∀ leaf ∈ leaves', leaf.frond ∈ frondForms (n + 1)) ∧ zs = leaves'.flatMap CrownLeaf.program := by
  induction leaves generalizing zs with
  | nil => exact ⟨[], rfl, nofun, yields_nil_iff.mp h⟩
  | cons leaf leaves ih =>
    obtain ⟨hfrond, hfronds⟩ := List.forall_mem_cons.mp hfronds
    rw [List.flatMap_cons] at h
    obtain ⟨us, ws, hus, hws, rfl⟩ := yields_append_iff.mp h
    obtain ⟨leaves', hangles, hforms, rfl⟩ := ih hfronds hws
    have hprogram : leaf.program =
        [.ofAmount (.turn .yawRight) leaf.angle, .bare .push] ++ (leaf.frond ++ [.bare .pop]) := rfl
    -- no rule is for the turn and the brackets around a frond
    rw [hprogram] at hus
    obtain ⟨before, rest, hbefore, hrest, rfl⟩ := yields_append_iff.mp hus
    obtain ⟨frond, after, hgrown, hafter, rfl⟩ := yields_append_iff.mp hrest
    obtain rfl := kept_of_frondTags (by simp [Symbol.ofAmount, Symbol.bare, frondTags]) hbefore
    obtain rfl := kept_of_frondTags (by simp [Symbol.bare, frondTags]) hafter
    refine ⟨⟨leaf.angle, frond⟩ :: leaves', ?_, List.forall_mem_cons.mpr ⟨frond_step hfrond hgrown, hforms⟩, rfl⟩
    rw [List.map_cons, List.map_cons, hangles]

/-- **A crowned plant grows**: its trunk as the rule for it says, and its fronds at their tips. -/
theorem isCrowned_step {n : Nat} {wood wood' : List (Symbol K)}
    (hwood : ∀ zs, (crownRules angles trunk).Yields wood zs → zs = wood') {leaves : List (CrownLeaf K)}
    {xs ys : List (Symbol K)} (hxs : IsCrowned n angles wood leaves xs) (h : (crownRules angles trunk).Yields xs ys) :
    ∃ leaves', IsCrowned (n + 1) angles wood' leaves' ys := by
  rw [hxs.program] at h
  obtain ⟨us, vs, hus, hvs, rfl⟩ := yields_append_iff.mp h
  obtain ⟨bend, ws, hbend, hws, rfl⟩ := yields_cons_iff.mp hvs
  obtain ⟨leaves', hangles, hfronds, rfl⟩ := leaves_step hxs.fronds hws
  refine ⟨leaves', ?_, hangles.trans hxs.angles, hfronds⟩
  rw [hwood us hus, (applies_of_not_governs (not_governs (by simp [Symbol.ofAmount, crownTags]))).mp hbend]
  rfl

/-- The crown opens in the first generation. -/
theorem isCrowned_first {l : K} {leafCount : Nat} {wood : List (Symbol K)}
    (hwood : ∀ zs, (crownRules angles trunk).Yields [.ofAmount .trunk l] zs → zs = wood) {ys : List (Symbol K)}
    (h : (crownRules angles trunk).Yields (trunkAndCrown l leafCount) ys) :
    ∃ leaves, IsCrowned 1 angles wood leaves ys := by
  obtain ⟨us, vs, hus, hvs, rfl⟩ := yields_cons_iff.mp h
  refine ⟨angles.map fun angle => ⟨angle, [bud 'I']⟩, ?_, by simp [Function.comp_def], by simp [frondForms]⟩
  rw [hwood us (yields_singleton_iff.mpr hus), applies_crown rfl (yields_singleton_iff.mp hvs), crown, crownOf,
    List.flatMap_map]
  rfl

/-! ## All generations -/

/-- What a plant is after so many generations: its start, and from the first one on a trunk with a crown. -/
def Crowning (angles : List K) (wood : Nat → List (Symbol K)) (start : List (Symbol K)) : Nat → List (Symbol K) → Prop
  | 0, xs => xs = start
  | n + 1, xs => ∃ leaves, IsCrowned (n + 1) angles (wood (n + 1)) leaves xs

/-- **Crowned plants.** When every draw is covered, the plant has a crown from the first generation on. -/
theorem derive_crowned {σ : Type} {draw : σ → K × σ} {s : σ}
    (hdraws : ∀ n, (crownRules angles trunk).Covers (drawAt draw s n)) {l : K} {leafCount : Nat}
    {wood : Nat → List (Symbol K)}
    (hfirst : ∀ zs, (crownRules angles trunk).Yields [.ofAmount .trunk l] zs → zs = wood 1)
    (hnext : ∀ n zs, (crownRules angles trunk).Yields (wood (n + 1)) zs → zs = wood (n + 2)) (n : Nat) :
    ∃ leaves, IsCrowned (n + 1) angles (wood (n + 1)) leaves
      (Derivation.derive (crownRules angles trunk) draw (n + 1) (trunkAndCrown l leafCount) s).symbols := by
  refine derive_yields (P := Crowning angles wood (trunkAndCrown l leafCount)) hdraws rfl (fun n xs ys hxs h => ?_) (n + 1)
  match n with
  | 0 =>
    obtain rfl : xs = trunkAndCrown l leafCount := hxs
    exact isCrowned_first hfirst h
  | n + 1 =>
    obtain ⟨leaves, hleaves⟩ := hxs
    exact isCrowned_step (hnext n) hleaves h

/-- The trunk of a palm after `n` generations. -/
def PalmParams.trunkAfter (p : PalmParams K) (n : Nat) : List (Symbol K) :=
  (List.replicate (2 ^ n) (.ofAmount .trunk ((fun l => 0.5 * l)^[n] p.trunkLength))).intersperse
    (.ofAmount (.turn .yawRight) p.lean)

/-- The trunk of a guided plant after `n` generations, of which there is at least one. -/
def guidedTrunkAfter (n : Nat) : List (Symbol K) :=
  (List.replicate (2 ^ n) (.bare .trunk)).intersperse (.bare .considerData)

/-- **The trunk of a palm doubles**, and its segments are halved. -/
theorem palmTrunk_step {p : PalmParams K} {n : Nat} {zs : List (Symbol K)}
    (h : (crownRules angles p.halve).Yields (p.trunkAfter n) zs) : zs = p.trunkAfter (n + 1) := by
  rw [PalmParams.trunkAfter] at h
  rw [PalmParams.trunkAfter, Nat.pow_succ', Function.iterate_succ_apply']
  refine yields_intersperse (fun ys hys => applies_trunk rfl hys) ?_ h
  exact not_governs (by simp [Symbol.ofAmount, crownTags])

/-- **The trunk of a guided plant doubles**, and its segments have no length of their own. -/
theorem guidedTrunk_step {x : Symbol K} (hx : x.tag = .trunk) {n : Nat} {zs : List (Symbol K)}
    (h : (crownRules angles (guidedTrunk : Rule K).production).Yields
      ((List.replicate (2 ^ n) x).intersperse (.bare .considerData)) zs) : zs = guidedTrunkAfter (n + 1) := by
  rw [guidedTrunkAfter, Nat.pow_succ']
  refine yields_intersperse (fun ys hys => applies_trunk hx hys) ?_ h
  exact not_governs (by simp [Symbol.bare, crownTags])

theorem derive_palm {σ : Type} {draw : σ → K × σ} {s : σ} (p : PalmParams K)
    (hdraws : ∀ n, (crownRules angles p.halve).Covers (drawAt draw s n)) {n : Nat} (hn : 1 ≤ n) :
    ∃ leaves, IsCrowned n angles (p.trunkAfter n) leaves
      (Derivation.derive (crownRules angles p.halve) draw n (trunkAndCrown p.trunkLength p.leafCount) s).symbols := by
  obtain ⟨n, rfl⟩ := Nat.exists_eq_add_of_le' hn
  have hfirst : ∀ zs, (crownRules angles p.halve).Yields [.ofAmount .trunk p.trunkLength] zs → zs = p.trunkAfter 1 :=
    fun _ => palmTrunk_step (n := 0)
  exact derive_crowned hdraws hfirst (fun _ _ => palmTrunk_step) n

theorem derive_guided {σ : Type} {draw : σ → K × σ} {s : σ} (p : GuidedParams K)
    (hdraws : ∀ n, (crownRules angles (guidedTrunk : Rule K).production).Covers (drawAt draw s n)) {n : Nat}
    (hn : 1 ≤ n) :
    ∃ leaves, IsCrowned n angles (guidedTrunkAfter n) leaves
      (Derivation.derive (crownRules angles (guidedTrunk : Rule K).production) draw n
        (trunkAndCrown p.trunkLength p.leafCount) s).symbols := by
  obtain ⟨n, rfl⟩ := Nat.exists_eq_add_of_le' hn
  have hfirst : ∀ zs, (crownRules angles (guidedTrunk : Rule K).production).Yields
      [.ofAmount .trunk p.trunkLength] zs → zs = guidedTrunkAfter 1 :=
    fun _ => guidedTrunk_step (n := 0) rfl
  exact derive_crowned hdraws hfirst (fun _ _ => guidedTrunk_step rfl) n

/-! ## Weights -/

/-- Every draw below one is covered, whatever the rule for the trunk is. -/
theorem covers_crownRules {angles : List Float} {trunk : Production Float} {d : Float} (hd : d < 1) :
    (crownRules angles trunk).Covers d := by
  refine covers_of_lt rfl fun tag htag => ?_
  have hmass : ∀ tag ∈ crownTags,
      massOf 0 [(.nonterminal 'C', 1), (.nonterminal 'I', 0.33), (.nonterminal 'I', 0.33), (.nonterminal 'I', 0.34),
        (.nonterminal 'L', 1), (.trunk, 1)] tag = (1 : Float) := by
    decide +kernel
  have hruled : tag ∈ crownTags := by
    by_contra hfree
    exact htag (not_governs hfree)
  refine lt_of_lt_of_eq hd ?_
  rw [matching_eq_filter, foldl_filter_eq_massOf]
  exact (hmass tag hruled).symm

/-! ## Drawings -/

theorem countP_intersperse {α : Type} {kind : α → Bool} {link : α} (hlink : kind link = false) (xs : List α) :
    (xs.intersperse link).countP kind = xs.countP kind := by
  induction xs with
  | nil => rfl
  | cons x xs ih =>
    cases xs with
    | nil => rfl
    | cons y xs => simp [List.countP_cons, hlink, ih]

theorem forall_mem_intersperse {α : Type} {P : α → Prop} {link : α} (hlink : P link) {xs : List α}
    (hxs : ∀ x ∈ xs, P x) : ∀ x ∈ xs.intersperse link, P x := by
  induction xs with
  | nil => exact hxs
  | cons x xs ih =>
    obtain ⟨hx, hxs⟩ := List.forall_mem_cons.mp hxs
    cases xs with
    | nil => exact List.forall_mem_singleton.mpr hx
    | cons y xs =>
      rw [List.intersperse_cons_cons]
      exact List.forall_mem_cons.mpr ⟨hx, List.forall_mem_cons.mpr ⟨hlink, ih hxs⟩⟩

/-- The trunk of a palm has a tube for each segment. -/
theorem tally_palmTrunk (p : PalmParams K) (n : Nat) : Tally 0 0 (2 ^ n) (p.trunkAfter n) where
  tags := by
    refine forall_mem_intersperse (P := fun x : Symbol K => x.tag.atMostTubes = true) rfl fun x hx => ?_
    rw [List.eq_of_mem_replicate hx]
    rfl
  closes := by
    refine closes_of_no_brackets (forall_mem_intersperse ⟨nofun, nofun⟩ fun x hx => ?_)
    rw [List.eq_of_mem_replicate hx]
    exact ⟨nofun, nofun⟩
  buds := by
    rw [buds, PalmParams.trunkAfter, countP_intersperse rfl, List.countP_replicate]
    rfl
  tubes := by
    rw [tubes, PalmParams.trunkAfter, countP_intersperse rfl, List.countP_replicate]
    rfl

/-- **A palm with fronds that have begun** has the tubes of its trunk and of its fronds, and a bud for each leaf. -/
theorem tally_palm {p : PalmParams K} {n : Nat} (hn : 2 ≤ n) {leaves : List (CrownLeaf K)} {xs : List (Symbol K)}
    (h : IsCrowned n angles (p.trunkAfter n) leaves xs) :
    Tally 2 leaves.length (2 ^ n + (leaves.map fun leaf => tubes leaf.frond).sum) xs := by
  obtain ⟨m, rfl⟩ := Nat.exists_eq_add_of_le' hn
  have hbend : Tally 0 0 0 [(.ofAmount (.turn .pitchDown) Scalar.halfPi : Symbol K)] :=
    ⟨List.forall_mem_singleton.mpr rfl, of_decide_eq_true rfl, rfl, rfl⟩
  have htally := (tally_palmTrunk p (m + 2)).append (hbend.append (tally_leaves h.fronds) (Nat.zero_le 2)) (Nat.zero_le 2)
  rw [Nat.zero_add, Nat.zero_add, Nat.zero_add] at htally
  rw [h.program]
  exact htally

/-! ## Palms and guided plants -/

/-- The plants of a palm with fronds that have begun: every lenient interpreter that allows brackets in brackets draws
four faces for each segment of the trunk and of the fronds, and leaves one bud for each leaf. -/
structure DrawnPalm (p : PalmParams K) (leaves : List (CrownLeaf K)) (plant : Interpreter K → Plant (Turtle K) ρ K) :
    Prop where
  fronds : ∀ leaf ∈ leaves, tubes leaf.frond = 3 * (p.depth - 1) ∨ tubes leaf.frond = 3 * (p.depth - 2)
  drawn : ∀ it : Interpreter K, it.strict = false → 2 ≤ it.maxStackDepth →
    ∃ drawing, (plant it).drawing = .ok drawing ∧
      drawing.report.faces = 4 * (2 ^ p.depth + (leaves.map fun leaf => tubes leaf.frond).sum) ∧
      drawing.report.unresolved = p.leafCount

section Plants

variable [RandomSource σ] [RandomSource ρ]

theorem palm_crowned (p : PalmParams Float) (hdepth : 1 ≤ p.depth) (s : σ) (r : ρ)
    (hdraws : ∀ n, drawAt Random.unit r n < (1 : Float)) :
    ∃ preset, (palm p s).preset = .ok preset ∧ ∃ leaves,
      IsCrowned p.depth (LeafAngles.generate p.leafSpacing p.leafCount s).angles.toList (p.trunkAfter p.depth) leaves
        (preset.grammar.derive r).symbols ∧
      (2 ≤ p.depth → DrawnPalm p leaves fun it => preset.generate it r) := by
  have hrules := ruleSet_crownAndTrunk (LeafAngles.generate p.leafSpacing p.leafCount s).angles.toList
    ⟨.trunk, 1, p.halve⟩ rfl
  refine ⟨_, congrArg (Except.map _) hrules, ?_⟩
  obtain ⟨leaves, hleaves⟩ := derive_palm p (fun n => covers_crownRules (hdraws n)) hdepth
  refine ⟨leaves, hleaves, fun hopen => ⟨fun leaf hleaf => ?_, fun it hlenient hlimit => ?_⟩⟩
  · have hfrond := hleaves.fronds leaf hleaf
    obtain ⟨n, hn⟩ := Nat.exists_eq_add_of_le' hopen
    rw [hn] at hfrond ⊢
    exact (tally_frond hfrond).imp Tally.tubes Tally.tubes
  · have hlength : leaves.length = p.leafCount := by
      rw [← List.length_map CrownLeaf.angle, hleaves.angles, Array.length_toList, LeafAngles.size_generate]
    obtain ⟨-, -, -, drawing, hdrawing, hreport, -⟩ := draw_of_tally (tally_palm hopen hleaves) hlenient hlimit
      (.ofConfig (.ofPen p.stepSize p.stepAngle p.radius))
    exact ⟨drawing, hdrawing, by rw [hreport], by rw [hreport, hlength]⟩

theorem guided_crowned (p : GuidedParams Float) (hdepth : 1 ≤ p.depth) (s : σ) (r : ρ)
    (hdraws : ∀ n, drawAt Random.unit r n < (1 : Float)) :
    ∃ preset, (guided p s).preset = .ok preset ∧ ∃ leaves,
      IsCrowned p.depth (LeafAngles.generate p.leafSpacing p.leafCount s).angles.toList (guidedTrunkAfter p.depth)
        leaves (preset.grammar.derive r).symbols := by
  have hrules := ruleSet_crownAndTrunk (LeafAngles.generate p.leafSpacing p.leafCount s).angles.toList guidedTrunk rfl
  exact ⟨_, congrArg (Except.map _) hrules, derive_guided p (fun n => covers_crownRules (hdraws n)) hdepth⟩

/-- **Palms and guided plants** after one generation or more, for all parameters, when all draws of the generations are
below one. The plant can be built, and derives its trunk and then its crown: a right angle downward, and for each leaf
angle that was drawn at the beginning, in their order, the turn to it and a frond in brackets. In the first generation
the fronds are buds; from the second on each has begun in one of three ways and has grown a segment in every
generation since. The trunk has two segments for one in every generation: those of a palm are halved each time, with the
same turn between any two, and those of a guided plant have no length of their own, with a look at the skeleton between
any two. From the second generation on the drawing of a palm counts what the trunk and the fronds are made of. -/
theorem crowned_plants (s : σ) (r : ρ) (hdraws : ∀ n, drawAt Random.unit r n < (1 : Float)) :
    (∀ p : PalmParams Float, 1 ≤ p.depth →
      ∃ preset, (palm p s).preset = .ok preset ∧ ∃ leaves,
        IsCrowned p.depth (LeafAngles.generate p.leafSpacing p.leafCount s).angles.toList (p.trunkAfter p.depth) leaves
          (preset.grammar.derive r).symbols ∧
        (2 ≤ p.depth → DrawnPalm p leaves fun it => preset.generate it r)) ∧
    (∀ p : GuidedParams Float, 1 ≤ p.depth →
      ∃ preset, (guided p s).preset = .ok preset ∧ ∃ leaves,
        IsCrowned p.depth (LeafAngles.generate p.leafSpacing p.leafCount s).angles.toList (guidedTrunkAfter p.depth)
          leaves (preset.grammar.derive r).symbols) :=
  ⟨fun p hdepth => palm_crowned p hdepth s r hdraws, fun p hdepth => guided_crowned p hdepth s r hdraws⟩

end Plants

/-- The standard palm, with the least and the greatest draw in turn. -/
theorem crowned_plants_standard :
    letI : RandomSource Bool := ⟨fun high => (if high then 0xffffffffffffffff else 0, !high)⟩
    ∃ preset, (palm (.standard : PalmParams Float) false).preset = .ok preset ∧
      ∃ drawing, (preset.generate .standard true).drawing = .ok drawing ∧ drawing.report.unresolved = 20 := by
  let _ : RandomSource Bool := ⟨fun high => (if high then 0xffffffffffffffff else 0, !high)⟩
  have hbelow : ∀ high : Bool, (Random.unit high : Float × Bool).1 < 1 := by
    decide +kernel
  obtain ⟨preset, hbuilt, leaves, -, hdrawn⟩ :=
    (crowned_plants false true fun n => hbelow _).1 (.standard : PalmParams Float) (by decide)
  obtain ⟨drawing, hdrawing, -, hunresolved⟩ := (hdrawn (by decide)).drawn .standard rfl (by decide)
  exact ⟨preset, hbuilt, drawing, hdrawing, hunresolved⟩

end Preset

end Foliage
