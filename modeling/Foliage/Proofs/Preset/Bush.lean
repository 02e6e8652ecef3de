import Foliage.Proofs.Interpreter.Events
import Foliage.Proofs.Ornament.Reading
import Foliage.Proofs.Preset.Growth
import Foliage.Proofs.Turtle.Polygon
import Foliage.Proofs.Turtle.Segments
import Mathlib.Tactic.Ring

/-!
# The polygons of a bush

Outlines come into a bush with its leaves, and only whole: each one in one piece from its begin to its end
(`blade`), among symbols that have nothing to do with outlines. No rule rewrites a symbol of a blade, so whatever is
rewritten around it, all generations have this form (`Leafy`, `leafy_derive`).

What ends an outline in such a program is therefore the end of a blade, and the turtle that comes there has made the
six moves of its rim since it began the outline (`outline_of_leafy`, `polygon_of_leafy`). The faces of a bush are
counted along its form (`length_of_leafy`): four for a segment, one for a blade and those of the ornament for a flower.
Put together, this is `bush_polygons`.
-/

namespace Foliage

variable {K : Type}

/-- The number of symbols of a program with a tag. -/
def tagged (tag : Tag) (xs : List (Symbol K)) : Nat := xs.countP fun x => x.tag = tag

theorem tagged_append (tag : Tag) (xs ys : List (Symbol K)) :
    tagged tag (xs ++ ys) = tagged tag xs + tagged tag ys :=
  List.countP_append

theorem tagged_cons (tag : Tag) (x : Symbol K) (xs : List (Symbol K)) :
    tagged tag (x :: xs) = tagged tag [x] + tagged tag xs :=
  tagged_append tag [x] xs

section Ornaments

variable [Scalar K]

open Interpreter

/-- The interpreter has no ornament, or a whole one with `n` triangles. -/
def Interpreter.Bears (it : Interpreter K) (n : Nat) : Prop :=
  (it.ornament = none ∧ n = 0) ∨ ∃ o : Ornament K, o.Whole ∧ it.ornament = some o.stamp ∧ o.triangles.length = n

theorem Interpreter.Bears.furnished {it : Interpreter K} {n : Nat} (h : it.Bears n) : it.Furnished := by
  rcases h with ⟨hnone, -⟩ | ⟨o, ho, hsome, -⟩
  · exact .inl hnone
  · exact .inr ⟨o, ho, hsome⟩

/-- An ornament symbol draws as many faces as the ornament has triangles. -/
theorem length_of_ornament {it : Interpreter K} {n : Nat} (hn : it.Bears n) {x : Symbol K} (hx : x.tag = .ornament)
    {m m' : Machine (Turtle K)} {fs : List (Face K)} (h : it.perform x m = .ok (m', fs)) : fs.length = n := by
  rcases hn with ⟨hnone, rfl⟩ | ⟨o, ho, hsome, rfl⟩
  · -- without an ornament the symbol is passed over, or stops the run
    simp only [perform, obey, hx, hnone] at h
    split at h
    · cases h
    · cases h
      rfl
  · obtain ⟨m₁, hm₁⟩ := perform_of_ornament Turtle.alone (total_of_whole ho) hx hsome m
    obtain ⟨-, rfl⟩ := Prod.mk.inj (Except.ok.inj (h.symm.trans hm₁))
    rw [length_each_turtle (length_stampOf ho)]
    exact Nat.mul_one _

end Ornaments

namespace Preset

/-- The tags of a bush outside of the outlines of its leaves. -/
def twigTags : List Tag :=
  [.forward, .ornament, .turn .yawRight, .turn .pitchUp, .turn .pitchDown, .turn .rollRight, .push, .pop,
    .nonterminal 'A', .nonterminal 'S', .nonterminal 'L', .nonterminal 'B']

variable [Scalar K]

/-! ## The form of a bush -/

/-- What is between the begin and the end of the outline of a leaf: two sides with half a turn between them. -/
def rim : List (Symbol K) :=
  leafSide ++ .bare (.turn .yawRight) :: .ofAmount (.turn .yawLeft) Scalar.pi :: leafSide

/-- The outline of a leaf, from its begin to its end. -/
def blade : List (Symbol K) := (.bare .startPoly :: rim) ++ [.bare .endPoly]

/-- Whole blades among symbols that have nothing to do with outlines. -/
inductive Leafy : List (Symbol K) → Prop
  | nil : Leafy []
  | twig {x : Symbol K} {xs : List (Symbol K)} : x.tag ∈ twigTags → Leafy xs → Leafy (x :: xs)
  | blade {xs : List (Symbol K)} : Leafy xs → Leafy (blade ++ xs)

theorem Leafy.append {xs ys : List (Symbol K)} (hx : Leafy xs) (hy : Leafy ys) : Leafy (xs ++ ys) := by
  induction hx with
  | nil => exact hy
  | twig htag _ ih => exact .twig htag ih
  | blade _ ih =>
    rw [List.append_assoc]
    exact .blade ih

theorem leafy_of_twigs {xs : List (Symbol K)} (h : ∀ x ∈ xs, x.tag ∈ twigTags) : Leafy xs := by
  induction xs with
  | nil => exact .nil
  | cons x xs ih =>
    obtain ⟨hx, hxs⟩ := List.forall_mem_cons.mp h
    exact .twig hx (ih hxs)

theorem leafy_leaf : Leafy (leaf : List (Symbol K)) := by
  have hstem : Leafy [.bare .push, .bare (.turn .pitchUp), (.bare (.turn .pitchUp) : Symbol K)] :=
    leafy_of_twigs (of_decide_eq_true rfl)
  have hend : Leafy [(.bare .pop : Symbol K)] := leafy_of_twigs (of_decide_eq_true rfl)
  exact hstem.append (.blade hend)

/-- A rule of a bush puts a leafy program in place of a bud or of a segment. -/
theorem leafy_of_mem_bushRead : ∀ r ∈ bushRead (K := K),
    (r.tag.isNonterminal = true ∨ r.tag = .forward) ∧ ∀ x : Symbol K, Leafy (r.production x) := by
  simp only [bushRead, List.forall_mem_cons]
  refine ⟨⟨.inl rfl, fun _ => ?_⟩, ⟨.inl rfl, fun _ => ?_⟩, ⟨.inl rfl, fun _ => ?_⟩, ⟨.inr rfl, fun _ => ?_⟩,
    ⟨.inl rfl, fun _ => ?_⟩, ⟨.inl rfl, fun _ => leafy_leaf⟩, ⟨.inl rfl, fun _ => ?_⟩, List.forall_mem_nil _⟩
  all_goals exact leafy_of_twigs (of_decide_eq_true rfl)

/-- No symbol of a blade has a rule. -/
theorem unruled_blade : ∀ x ∈ (blade : List (Symbol K)), ∀ r ∈ (bushSet (K := K)).rules, r.tag ≠ x.tag := by
  intro x hx r hr htag
  have hplain : ∀ x ∈ (blade : List (Symbol K)), ¬ (x.tag.isNonterminal = true ∨ x.tag = .forward) :=
    of_decide_eq_true rfl
  exact hplain x hx (htag ▸ (leafy_of_mem_bushRead r hr).1)

/-- **A generation keeps the form of a bush.** -/
theorem leafy_rewritten {xs : List (Symbol K)} (hxs : Leafy xs) {yss : List (List (Symbol K))}
    (h : List.Forall₂ bushSet.Rewrites xs yss) : Leafy yss.flatten := by
  induction hxs generalizing yss with
  | nil =>
    cases h
    exact .nil
  | twig htag _ ih =>
    obtain ⟨ys, yss, hx, hrest, rfl⟩ := List.forall₂_cons_left_iff.mp h
    have hgrown : Leafy ys := by
      rcases hx with rfl | ⟨r, hr, -, rfl⟩
      · exact .twig htag .nil
      · exact (leafy_of_mem_bushRead r hr).2 _
    exact hgrown.append (ih hrest)
  | @blade xs _ ih =>
    have hblade := List.forall₂_take (blade (K := K)).length h
    have hrest := List.forall₂_drop (blade (K := K)).length h
    rw [List.take_left] at hblade
    rw [List.drop_left] at hrest
    rw [← List.take_append_drop (blade (K := K)).length yss, List.flatten_append,
      flatten_of_unruled unruled_blade hblade]
    exact .blade (ih hrest)

theorem leafy_derive {σ : Type} {draw : σ → K × σ} (depth : Nat) (s : σ) :
    Leafy (Derivation.derive bushSet draw depth [bud 'A'] s).symbols :=
  derive_rewrites (P := fun _ xs => Leafy xs) (fun _ _ _ h hr => leafy_rewritten h hr)
    (leafy_of_twigs (of_decide_eq_true rfl)) depth s

/-- What ends an outline in a leafy program comes behind the begin of the outline and a whole rim. -/
theorem exists_rim {xs : List (Symbol K)} (hxs : Leafy xs) {pre post : List (Symbol K)} {x : Symbol K}
    (h : xs = pre ++ x :: post) (hx : x.tag = .endPoly) : ∃ stem, pre = stem ++ .bare .startPoly :: rim := by
  induction hxs generalizing pre with
  | nil => simp at h
  | @twig y xs htag _ ih =>
    cases pre with
    | nil =>
      obtain ⟨rfl, -⟩ := List.cons.inj h
      rw [hx] at htag
      exact absurd htag (by decide)
    | cons z pre =>
      obtain ⟨rfl, htail⟩ := List.cons.inj h
      obtain ⟨stem, rfl⟩ := ih htail
      exact ⟨y :: stem, rfl⟩
  | @blade xs _ ih =>
    have hopen : ∀ y ∈ (.bare .startPoly :: rim : List (Symbol K)), y.tag ≠ .endPoly := of_decide_eq_true rfl
    rw [blade, List.append_assoc] at h
    -- the symbol is the end of this blade, or comes behind it
    rcases List.append_eq_append_iff.mp h with ⟨mid, hpre, hmid⟩ | ⟨mid, hopened, hmid⟩
    · cases mid with
      | nil => exact ⟨[], by simpa using hpre⟩
      | cons y mid =>
        obtain ⟨-, hmid⟩ := List.cons.inj hmid
        obtain ⟨stem, rfl⟩ := ih hmid
        exact ⟨(.bare .startPoly :: rim) ++ y :: stem, by simp [hpre]⟩
    · cases mid with
      | nil => exact ⟨[], by simpa using hopened.symm⟩
      | cons y mid =>
        obtain ⟨rfl, -⟩ := List.cons.inj hmid
        exact absurd hx (hopen x (by rw [hopened]; simp))

/-! ## Runs of a bush -/

variable {it : Interpreter K} {m m' : Machine (Turtle K)} {fs : List (Face K)}

open Interpreter

/-- The rim of a leaf makes an outline of seven points: where it begins, and where its six moves come to. -/
theorem outline_of_rim (h : it.Executes (.bare .startPoly :: rim) m fs m') : m'.turtle.outline.length = 7 := by
  have hlevel : ∀ i ≤ (rim (K := K)).length, 0 ≤ depthAt 0 (rim (K := K)) i := of_decide_eq_true rfl
  have hplain : ∀ x ∈ (rim : List (Symbol K)), x.tag ≠ .startPoly ∧ x.tag ≠ .endPoly := of_decide_eq_true rfl
  obtain ⟨n, hn, t, ht, -, houtline⟩ :=
    records_of_executes h hlevel fun i x hx _ => hplain x (List.mem_of_getElem? hx)
  obtain rfl : n = 0 := (Int.ofNat.inj hn).symm
  obtain rfl : m'.turtle = t := Option.some.inj ht
  rw [houtline, List.length_cons, places, List.length_map]
  rfl

/-- **Every outline of a bush is that of a whole leaf**: what ends an outline in a leafy program finds seven points. -/
theorem outline_of_leafy {pre post : List (Symbol K)} {x : Symbol K} (hleafy : Leafy (pre ++ x :: post))
    (hx : x.tag = .endPoly) (h : it.Executes pre m fs m') : m'.turtle.outline.length = 7 := by
  obtain ⟨stem, rfl⟩ := exists_rim hleafy rfl hx
  obtain ⟨_, m₁, _, _, hrim, -⟩ := executes_append_iff.mp h
  exact outline_of_rim hrim

/-- Every end of an outline of a bush draws its polygon. -/
theorem polygon_of_leafy {xs : List (Symbol K)} (hleafy : Leafy xs) (h : it.Executes xs m fs m') {i : Nat}
    {x : Symbol K} (hi : xs[i]? = some x) (hx : x.tag = .endPoly) :
    ∃ polygon, it.drawnAt xs m i = [polygon] ∧ polygon.length = 7 := by
  obtain ⟨pre, x, post, rfl, rfl, rfl⟩ := exists_split hi
  obtain ⟨fs₁, m₁, gs, hpre, hpost, -⟩ := executes_append_iff.mp h
  obtain ⟨m₂, fs₂, -, hclose, -⟩ := executes_cons_iff.mp hpost
  have hseven := outline_of_leafy hleafy hx hpre
  obtain ⟨rfl, -⟩ := polygon_of_perform hclose hx
  refine ⟨m₁.turtle.outline, ?_, hseven⟩
  rw [drawnAt_of_perform hpre hclose post, hseven]
  rfl

/-- A bush never reports that an outline is no polygon. -/
theorem not_openPolygon_of_leafy {xs : List (Symbol K)} (hleafy : Leafy xs) (points : Nat) :
    .openPolygon points ∉ (it.run xs m).trace.events := by
  intro he
  obtain ⟨pre, x, post, fs, m', rfl, hpre, hx⟩ := mem_events_run he rfl
  obtain ⟨htag, hshort, -⟩ := mem_eventsOf_turtle hx
  rw [outline_of_leafy hleafy htag hpre] at hshort
  omega

/-! ## What a bush draws -/

/-- A blade draws its polygon alone. -/
theorem length_of_blade (h : it.Executes blade m fs m') : fs.length = 1 := by
  obtain ⟨fs₁, m₁, gs, hrim, hclose, rfl⟩ := executes_concat_iff.mp h
  obtain ⟨rfl, -⟩ := polygon_of_perform hclose rfl
  have hnone : fs₁.length = 4 * 0 := (faces_of_executes (of_decide_eq_true rfl) hrim).1
  rw [outline_of_rim hrim, List.length_append, hnone]
  rfl

theorem length_of_twig {n : Nat} (hn : it.Bears n) {x : Symbol K} (hx : x.tag ∈ twigTags)
    (h : it.perform x m = .ok (m', fs)) : fs.length = 4 * tagged .forward [x] + n * tagged .ornament [x] := by
  by_cases hornament : x.tag = .ornament
  · rw [length_of_ornament hn hornament h]
    simp [tagged, hornament]
  · have htags : ∀ tag ∈ twigTags, tag ≠ .ornament →
        tag.atMostTubes = true ∧ (tag.drawsTube = true ↔ tag = .forward) := by
      decide
    obtain ⟨htubes, hdraws⟩ := htags x.tag hx hornament
    rw [(faces_of_perform htubes h).1]
    by_cases hforward : x.tag = .forward
    · simp [tagged, hforward, Tag.drawsTube]
    · simp [tagged, hforward, hornament, hdraws]

/-- **The faces of a leafy program**: four for each segment, one for each blade, and the triangles of each ornament. -/
theorem length_of_leafy {n : Nat} (hn : it.Bears n) {xs : List (Symbol K)} (hleafy : Leafy xs)
    (h : it.Executes xs m fs m') :
    fs.length = 4 * tagged .forward xs + tagged .endPoly xs + n * tagged .ornament xs := by
  induction hleafy generalizing m fs with
  | nil =>
    cases h
    rfl
  | @twig x xs hx _ ih =>
    obtain ⟨m₁, fs₁, gs, hx', hrest, rfl⟩ := executes_cons_iff.mp h
    have hend : tagged .endPoly [x] = 0 := by
      have htags : ∀ tag ∈ twigTags, tag ≠ .endPoly := by decide
      simp [tagged, htags x.tag hx]
    rw [List.length_append, length_of_twig hn hx hx', ih hrest, tagged_cons .forward x xs,
      tagged_cons .endPoly x xs, tagged_cons .ornament x xs, hend]
    ring
  | @blade xs _ ih =>
    obtain ⟨fs₁, m₁, gs, hblade, hrest, rfl⟩ := executes_append_iff.mp h
    have hforward : tagged .forward (blade : List (Symbol K)) = 0 := rfl
    have hend : tagged .endPoly (blade : List (Symbol K)) = 1 := rfl
    have hornament : tagged .ornament (blade : List (Symbol K)) = 0 := rfl
    rw [List.length_append, length_of_blade hblade, ih hrest, tagged_append, tagged_append, tagged_append, hforward,
      hend, hornament]
    ring

/-- As many outlines are begun as ended. -/
theorem tagged_eq_of_leafy {xs : List (Symbol K)} (hleafy : Leafy xs) :
    tagged .startPoly xs = tagged .endPoly xs := by
  induction hleafy with
  | nil => rfl
  | @twig x xs hx _ ih =>
    have htags : ∀ tag ∈ twigTags, tag ≠ .startPoly ∧ tag ≠ .endPoly := by decide
    obtain ⟨hstart, hend⟩ := htags x.tag hx
    simpa [tagged, hstart, hend] using ih
  | blade _ ih =>
    rw [tagged_append, tagged_append, ih]
    rfl

/-- **The polygons of a bush.** A bush can be built for all parameters. Derive its program from any source of draws, and
run it, from its own turtle with nothing saved, by a lenient interpreter that allows a stack as deep as it has
generations, without an ornament or with a whole one of `n` triangles. Then every end of an outline draws one polygon of
seven points, and no outline is reported to be none; as many outlines are begun as ended; and the run succeeds and has
counted four faces for each segment, one for each end of an outline and `n` for each ornament symbol. -/
theorem bush_polygons (p : BushParams Float) :
    ∃ preset, bush p = .ok preset ∧
      ∀ (σ : Type) [RandomSource σ] (s : σ) (it : Interpreter Float) (n : Nat),
        it.strict = false → p.depth ≤ it.maxStackDepth → it.Bears n →
        let program := (preset.grammar.derive s).symbols
        let m : Machine (Turtle Float) := ⟨.ofConfig preset.turtle, []⟩
        (∀ i x, program[i]? = some x → x.tag = .endPoly →
          ∃ polygon, it.drawnAt program m i = [polygon] ∧ polygon.length = 7) ∧
        (∀ points, .openPolygon points ∉ (it.run program m).trace.events) ∧
        tagged .startPoly program = tagged .endPoly program ∧
        ∃ report, (it.run program m).result = .ok report ∧
          report.faces = 4 * tagged .forward program + tagged .endPoly program + n * tagged .ornament program := by
  refine ⟨_, bush_eq p, ?_⟩
  intro σ _ s it n hlenient hlimit hn program m
  have hleafy : Leafy program := leafy_derive p.depth s
  have hnests : (bushSet (K := Float)).Nests 1 := nests_bushRead
  have hcloses : Closes p.depth 0 program := closes_derive_one hnests p.depth (of_decide_eq_true rfl) s
  obtain ⟨hruns, -⟩ := run_of_closes hcloses m.turtle hlimit hlenient fun _ hs t =>
    isSome_turtle_stamp (hn.furnished.total hs) t
  obtain ⟨fs, m', h⟩ := run_ok_iff.mp hruns
  exact ⟨fun i x => polygon_of_leafy hleafy h, not_openPolygon_of_leafy hleafy, tagged_eq_of_leafy hleafy, _,
    (run_of_executes h).2.2, length_of_leafy hn hleafy h⟩

/-- A bush of two generations, all of whose draws are zero, with one flower on it. -/
theorem bush_polygons_flower :
    letI : RandomSource UInt64 := ⟨fun s => (s, s + 1)⟩
    let petal : Ornament Float := ⟨#[⟨0, 0, 0⟩, ⟨1, 0, 0⟩, ⟨0, 1, 0⟩], [⟨0, 1, 2⟩], ⟨0, 0, 1⟩⟩
    let it : Interpreter Float := ⟨2, false, some petal.stamp⟩
    ∃ preset, bush ⟨2, 0.5, 22.5, 0.1⟩ = .ok preset ∧
      let program := (preset.grammar.derive (0 : UInt64)).symbols
      tagged .startPoly program = 2 ∧
        ∃ report, (it.run program ⟨(.ofConfig preset.turtle : Turtle Float), []⟩).result = .ok report ∧
          report.faces = 4 * 13 + 2 + 1 := by
  let _ : RandomSource UInt64 := ⟨fun s => (s, s + 1)⟩
  intro petal it
  have hpetal : it.Bears 1 := by
    refine .inr ⟨petal, ?_, rfl, rfl⟩
    show ∀ t ∈ petal.triangles, ∀ k ∈ t.corners, k < petal.vertices.size
    decide
  obtain ⟨preset, hbuilt, hbush⟩ := bush_polygons ⟨2, 0.5, 22.5, 0.1⟩
  obtain ⟨-, -, -, report, hr, hfaces⟩ := hbush UInt64 0 it 1 rfl (by decide) hpetal
  obtain rfl := Except.ok.inj ((bush_eq _).symm.trans hbuilt)
  refine ⟨_, hbuilt, by decide +kernel, report, hr, hfaces.trans ?_⟩
  decide +kernel

end Preset

end Foliage
