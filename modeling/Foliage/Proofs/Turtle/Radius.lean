import Foliage.Proofs.Interpreter.Twins
import Foliage.Proofs.PartialMap
import Foliage.Proofs.Population.Steering

/-!
# The radius shows in tubes alone

Two runs that differ in the radius of the turtles they start with and in the amounts of the symbols that set it are told
apart by nothing but the corners of tubes. Turtles that differ in the radius alone go on to do so under every action,
stamp alike and steer alike (`TurtleLike.IgnoresRadius`, for turtles and for populations), and what they draw differs
only where a tube is drawn (`FaceAlike`). So the symbols of both programs match, and the runs go side by side
(`run_resized`).
-/

namespace Foliage

variable {K : Type}

/-! ## Differing in the radius -/

def Turtle.withRadius (t : Turtle K) (radius : K) : Turtle K := { t with radius }

def Member.withRadius (m : Member K) (radius : K) : Member K := { m with turtle := m.turtle.withRadius radius }

/-- Two turtles that agree in everything but the radius. -/
def Turtle.SameButRadius (t u : Turtle K) : Prop := ∃ radius, u = t.withRadius radius

/-- Two members that agree in everything but the radius of their turtles. -/
def Member.SameButRadius (m n : Member K) : Prop := ∃ radius, n = m.withRadius radius

/-- Two populations whose members agree, one by one, in everything but the radius of their turtles. -/
structure Population.SameButRadius (p q : Population K) : Prop where
  skeleton : q.skeleton = p.skeleton
  guidance : q.guidance = p.guidance
  members : List.Forall₂ Member.SameButRadius p.members q.members

/-- Two actions that are the same, or set the radius to different amounts. -/
inductive Action.SameButRadius : Action K → Action K → Prop
  | same (a : Action K) : SameButRadius a a
  | radius (r s : K) : SameButRadius (.setRadius r) (.setRadius s)

/-- Two symbols that are the same, or set the radius to different amounts. -/
inductive Symbol.SameButRadius : Symbol K → Symbol K → Prop
  | same (x : Symbol K) : SameButRadius x x
  | radius (r s : K) : SameButRadius (.ofAmount .setRadius r) (.ofAmount .setRadius s)

/-- The turtles of two machines, the live ones and the saved ones, are related one by one. -/
structure Machine.Related {τ : Type} (r : τ → τ → Prop) (m n : Machine τ) : Prop where
  turtle : r m.turtle n.turtle
  stack : List.Forall₂ r m.stack n.stack

/-- The action draws a tube. -/
def Action.drawsTube : Action K → Bool
  | .forward _ => true
  | _ => false

/-- The tag stands for an action that draws a tube. -/
def Tag.drawsTube : Tag → Bool
  | .forward | .trunk => true
  | _ => false

/-- Two faces are equal, or both are quads if they are faces of tubes. -/
def FaceAlike (tube : Bool) (f g : Face K) : Prop := if tube then f.length = 4 ∧ g.length = 4 else f = g

/-- Populations that are made of turtles with different radii. -/
theorem sameButRadius_ofTurtle (s : Skeleton K) (g : Guidance K) {t u : Turtle K} (h : t.SameButRadius u) :
    (Population.ofTurtle s g t).SameButRadius (.ofTurtle s g u) := by
  obtain ⟨radius, rfl⟩ := h
  exact ⟨rfl, rfl, .cons ⟨radius, rfl⟩ .nil⟩

theorem FaceAlike.eq_or_quads {tube : Bool} {f g : Face K} (h : FaceAlike tube f g) :
    f = g ∨ f.length = 4 ∧ g.length = 4 := by
  cases tube with
  | true => exact .inr h
  | false => exact .inl h

theorem faceAlike_refl (fs : List (Face K)) : List.Forall₂ (FaceAlike false) fs fs :=
  List.forall₂_same.mpr fun _ _ => rfl

/-- Turtles in a relation go on to be in it and can be told apart by tubes alone. -/
structure TurtleLike.IgnoresRadius {τ : Type} [TurtleLike τ K] (r : τ → τ → Prop) : Prop where
  act : ∀ {t u}, r t u → ∀ {a b : Action K}, a.SameButRadius b → r (act t a).1 (act u b).1
  faces : ∀ {t u}, r t u → ∀ {a b : Action K}, a.SameButRadius b →
    List.Forall₂ (FaceAlike a.drawsTube) (TurtleLike.act t a).2.faces.toList (TurtleLike.act u b).2.faces.toList
  stamp : ∀ {t u}, r t u → ∀ s, stamp? t s = stamp? u s
  steer : ∀ {t u}, r t u → ∀ f : τ → τ × Trace K, steer? = some f →
    r (f t).1 (f u).1 ∧ (f t).2.faces.toList = (f u).2.faces.toList

open TurtleLike Interpreter

/-! ## One symbol -/

section Step

variable {τ : Type} [TurtleLike τ K] {it : Interpreter K} {r : τ → τ → Prop} {x y : Symbol K}

theorem Symbol.SameButRadius.tag (h : x.SameButRadius y) : x.tag = y.tag := by
  cases h <;> rfl

theorem Symbol.SameButRadius.action? (h : x.SameButRadius y) {a : Action K} (ha : x.action? = some a) :
    ∃ b, y.action? = some b ∧ a.SameButRadius b := by
  cases h with
  | same => exact ⟨a, ha, .same a⟩
  | radius r s =>
    obtain rfl := Option.some.inj ha
    exact ⟨_, rfl, .radius r s⟩

theorem drawsTube_of_action? {a : Action K} (h : x.action? = some a) : a.drawsTube = x.tag.drawsTube := by
  obtain ⟨tag, amount⟩ := x
  cases tag
  case setRadius =>
    obtain ⟨radius, rfl, rfl⟩ := Option.map_eq_some_iff.mp h
    rfl
  all_goals cases h <;> rfl

/-- The same symbol, when it is no action, matches itself on machines whose turtles differ in the radius. -/
theorem matches_self (hr : IgnoresRadius r) (hx : x.action? = none) :
    it.Matches (Machine.Related r) (fun x _ => List.Forall₂ (FaceAlike x.tag.drawsTube)) x x := by
  intro m n hmn
  cases hm : it.perform x m with
  | error fault =>
    left
    refine ⟨fault, rfl, ?_⟩
    obtain hf | ⟨rfl, -⟩ := faultOf?_of_perform hm
    · rw [hmn.stack.length_eq] at hf
      exact perform_of_faultOf? hf
    · obtain ⟨ht, s, ho, hs⟩ := perform_eq_brokenOrnament_iff.mp hm
      rw [hr.stamp hmn.turtle] at hs
      exact perform_eq_brokenOrnament_iff.mpr ⟨ht, s, ho, hs⟩
  | ok result =>
    obtain ⟨m', fs⟩ := result
    right
    cases perform_ok_iff.mp hm with
    | act a ha =>
      rw [hx] at ha
      cases ha
    | stamp s fs ht ho hs =>
      rw [hr.stamp hmn.turtle] at hs
      refine ⟨_, _, _, _, rfl, perform_ok_iff.mpr (.stamp s fs ht ho hs), hmn, ?_⟩
      simp only [ht]
      exact faceAlike_refl fs
    | steer f ht hf =>
      obtain ⟨hturtle, hfaces⟩ := hr.steer hmn.turtle f hf
      refine ⟨_, _, _, _, rfl, perform_ok_iff.mpr (.steer f ht hf), ⟨hturtle, hmn.stack⟩, ?_⟩
      simp only [ht, hfaces]
      exact faceAlike_refl _
    | push ht hd =>
      rw [hmn.stack.length_eq] at hd
      exact ⟨_, _, _, _, rfl, perform_ok_iff.mpr (.push ht hd), ⟨hmn.turtle, .cons hmn.turtle hmn.stack⟩, .nil⟩
    | pop t rest ht hs =>
      have hstack := hmn.stack
      rw [hs] at hstack
      obtain ⟨u, rest', htu, hrest, hs'⟩ := List.forall₂_cons_left_iff.mp hstack
      exact ⟨_, _, _, _, rfl, perform_ok_iff.mpr (.pop u rest' ht hs'), ⟨htu, hrest⟩, .nil⟩
    | idle ht ha => exact ⟨_, _, _, _, rfl, perform_ok_iff.mpr (.idle ht ha), hmn, .nil⟩
    | pass ht hl => exact ⟨_, _, _, _, rfl, perform_ok_iff.mpr (.pass ht hl), hmn, .nil⟩

/-- Symbols that differ in the radius at most match on machines whose turtles do. -/
theorem matches_of_sameButRadius (hr : IgnoresRadius r) (hxy : x.SameButRadius y) :
    it.Matches (Machine.Related r) (fun x _ => List.Forall₂ (FaceAlike x.tag.drawsTube)) x y := by
  cases hx : x.action? with
  | some a =>
    obtain ⟨b, hy, hab⟩ := hxy.action? hx
    intro m n hmn
    right
    refine ⟨_, _, _, _, perform_ok_iff.mpr (.act a hx), perform_ok_iff.mpr (.act b hy),
      ⟨hr.act hmn.turtle hab, hmn.stack⟩, ?_⟩
    simp only [← drawsTube_of_action? hx]
    exact hr.faces hmn.turtle hab
  | none =>
    cases hxy with
    | same => exact matches_self hr hx
    | radius => cases hx

end Step

/-! ## Runs -/

section Run

variable {τ : Type} [TurtleLike τ K] {it : Interpreter K} {r : τ → τ → Prop} {xs ys : List (Symbol K)}

/-- The report of a program that is executed depends on the tags of its symbols alone. -/
theorem reportOf_of_tags (h : List.Forall₂ (fun x y : Symbol K => x.tag = y.tag) xs ys) (depth faces : Nat) :
    it.reportOf τ depth xs faces = it.reportOf τ depth ys faces := by
  refine reportOf_congr (h.imp fun x y hxy depth n => ?_) depth faces
  rw [reportOne, reportOne, hxy]
  exact ⟨rfl, rfl⟩

/-- Two runs are told apart by the corners of tubes alone: they end alike, with equal reports, leave related turtles and
stacks, and draw the same faces, position by position, but for tubes, which are quads in both. -/
structure Interpreter.RunsAlike (it : Interpreter K) (r : τ → τ → Prop) (xs ys : List (Symbol K)) (m n : Machine τ) :
    Prop where
  result : (it.run xs m).result = (it.run ys n).result
  machine : Machine.Related r (it.run xs m).machine (it.run ys n).machine
  faces : List.Forall₂ (fun f g => f = g ∨ f.length = 4 ∧ g.length = 4)
    (it.run xs m).trace.faces.toList (it.run ys n).trace.faces.toList
  /-- What is drawn at a symbol that draws no tube is the same. -/
  drawn : ∀ (i : Nat) (x : Symbol K), xs[i]? = some x →
    List.Forall₂ (FaceAlike x.tag.drawsTube) (it.drawnAt xs m i) (it.drawnAt ys n i)

theorem runsAlike_of_ignoresRadius (hr : IgnoresRadius r) (hxs : List.Forall₂ Symbol.SameButRadius xs ys)
    {m n : Machine τ} (hmn : Machine.Related r m n) : it.RunsAlike r xs ys m n := by
  have hmatches : List.Forall₂ (it.Matches (Machine.Related r) fun x _ => List.Forall₂ (FaceAlike x.tag.drawsTube))
      xs ys := hxs.imp fun x y hxy => matches_of_sameButRadius hr hxy
  obtain ⟨hmachine, hdrawn, hresult⟩ := run_together hmatches (fun _ _ => .nil) hmn
  have hblock : ∀ (i : Nat) (x : Symbol K), xs[i]? = some x →
      List.Forall₂ (FaceAlike x.tag.drawsTube) (it.drawnAt xs m i) (it.drawnAt ys n i) := by
    intro i x hx
    obtain ⟨hi, -⟩ := List.getElem?_eq_some_iff.mp hx
    rw [hxs.length_eq] at hi
    exact hdrawn i x _ hx (List.getElem?_eq_getElem hi)
  have hfaces : List.Forall₂ (fun f g => f = g ∨ f.length = 4 ∧ g.length = 4)
      (it.run xs m).trace.faces.toList (it.run ys n).trace.faces.toList := by
    rw [faces_run, faces_run, ← hxs.length_eq]
    refine List.rel_flatMap (R := fun i j => i = j ∧ i < xs.length) ?_ ?_
    · exact List.forall₂_same.mpr fun i hi => ⟨rfl, List.mem_range.mp hi⟩
    · rintro i j ⟨rfl, hi⟩
      exact (hblock i xs[i] (List.getElem?_eq_getElem hi)).imp fun f g => FaceAlike.eq_or_quads
  refine ⟨?_, hmachine, hfaces, hblock⟩
  rcases hresult with ⟨e, he, he'⟩ | ⟨hok, hok'⟩
  · rw [he, he']
  · have htags := hxs.imp fun x y hxy => hxy.tag
    rw [hok, hok', reportOf_of_tags htags, hmn.stack.length_eq, ← Array.length_toList, hfaces.length_eq,
      Array.length_toList]

end Run

/-! ## Turtles -/

section Turtles

variable [Scalar K]

/-- Tubes are quads. -/
theorem length_of_mem_tube {t : Turtle K} {way : Vec K} {f : Face K} (h : f ∈ t.tube way) : f.length = 4 := by
  unfold Turtle.tube at h
  simp only [List.mem_cons, List.not_mem_nil, or_false] at h
  rcases h with rfl | rfl | rfl | rfl <;> rfl

theorem ignoresRadius_turtle : TurtleLike.IgnoresRadius (Turtle.SameButRadius (K := K)) where
  act := by
    rintro t u ⟨radius, rfl⟩ a b hab
    cases hab with
    | radius r s => exact ⟨s, rfl⟩
    | same =>
      cases a with
      | setRadius r => exact ⟨r, rfl⟩
      | _ => exact ⟨radius, rfl⟩
  faces := by
    rintro t u ⟨radius, rfl⟩ a b hab
    cases hab with
    | radius r s => exact .nil
    | same =>
      cases a with
      | forward amount =>
        -- the corners are not the same, but there are as many of them
        refine List.forall₂_iff_get.mpr ⟨rfl, fun i hi hi' => ⟨?_, ?_⟩⟩
        · exact length_of_mem_tube (List.get_mem _ _)
        · exact length_of_mem_tube (List.get_mem _ _)
      | _ => exact faceAlike_refl _
  stamp := by
    rintro t u ⟨radius, rfl⟩ s
    rfl
  steer _ _ hf := by cases hf

/-! ## Populations -/

section Populations

variable {m : Member K} {s : Skeleton K} {g : Guidance K}

theorem aim_withRadius (target : Vec K) (radius : K) :
    (m.withRadius radius).aim g target = (m.aim g target).withRadius radius := by
  unfold Member.aim Turtle.headToward
  cases hway : (target - m.turtle.position).normalize? with
  | none => simp [Member.withRadius, Turtle.withRadius, hway]
  | some heading => simp [Member.withRadius, Turtle.withRadius, hway]

theorem fork_withRadius (children : List Nat) (radius : K) :
    (m.withRadius radius).fork s g children = (m.fork s g children).map (·.withRadius radius) := by
  unfold Member.fork
  rw [List.map_filterMap]
  apply List.filterMap_congr
  intro child _
  simp only [Option.map_map, aim_withRadius]
  rfl

/-- Steering reads no radius: the members that replace one have the radius of that one. -/
theorem steer_withRadius (radius : K) :
    (m.withRadius radius).steer s g = ((m.steer s g).1.map (·.withRadius radius), (m.steer s g).2) := by
  have hcursor : (m.withRadius radius).cursor = m.cursor := rfl
  have harrived : ∀ target, (m.withRadius radius).arrived g target = m.arrived g target := fun _ => rfl
  unfold Member.steer
  simp only [hcursor, harrived, fork_withRadius, aim_withRadius]
  cases s.node? m.cursor with
  | none => rfl
  | some n =>
    by_cases hc : n.children.isEmpty = true
    · simp only [hc, if_true]
      rfl
    · cases ha : m.arrived g n.point with
      | true => simp [hc, ha]
      | false => simp [hc, ha]

omit [Scalar K] in
theorem sameButRadius_withRadius (ms : List (Member K)) (radius : K) :
    List.Forall₂ Member.SameButRadius ms (ms.map (·.withRadius radius)) :=
  List.forall₂_map_right_iff.mpr (List.forall₂_same.mpr fun _ _ => ⟨radius, rfl⟩)

theorem ignoresRadius_population : TurtleLike.IgnoresRadius (Population.SameButRadius (K := K)) where
  act := by
    rintro p q ⟨hskeleton, hguidance, hmembers⟩ a b hab
    refine ⟨hskeleton, hguidance, ?_⟩
    show List.Forall₂ _ (p.act a).1.members (q.act b).1.members
    rw [members_act, members_act, List.forall₂_map_left_iff, List.forall₂_map_right_iff]
    apply hmembers.imp
    rintro m n ⟨radius, rfl⟩
    obtain ⟨radius', h⟩ := ignoresRadius_turtle.act ⟨radius, rfl⟩ hab
    exact ⟨radius', congrArg (fun turtle => { m with turtle }) h⟩
  faces := by
    rintro p q ⟨-, -, hmembers⟩ a b hab
    show List.Forall₂ _ (p.act a).2.faces.toList (q.act b).2.faces.toList
    rw [faces_act, faces_act]
    apply List.rel_flatMap hmembers
    rintro m n ⟨radius, rfl⟩
    exact ignoresRadius_turtle.faces ⟨radius, rfl⟩ hab
  stamp := by
    rintro p q ⟨-, -, hmembers⟩ s
    show p.stamp? s = q.stamp? s
    unfold Population.stamp?
    apply congrArg
    apply mapM_eq_of_forall₂
    apply hmembers.imp
    rintro m n ⟨radius, rfl⟩
    rfl
  steer := by
    rintro p q ⟨hskeleton, hguidance, hmembers⟩ f hf
    obtain rfl := Option.some.inj hf
    refine ⟨⟨hskeleton, hguidance, ?_⟩, by rw [faces_steer, faces_steer]⟩
    rw [members_steer, members_steer, hskeleton, hguidance]
    apply List.rel_flatMap hmembers
    rintro m n ⟨radius, rfl⟩
    simp only [steer_withRadius]
    exact sameButRadius_withRadius _ radius

end Populations

/-! ## Turtles and populations -/

/-- **The radius shows in tubes alone.** Run a program with nothing saved, on a turtle or on a population, and once more
with other radii of the turtles and other amounts of the symbols that set the radius. Both runs end alike, with the same
error at the same symbol or with equal reports; the turtles and members that they leave, live or saved, are the same but
for their radii; and the faces are the same one by one, but for those of tubes, which are quads in both. -/
theorem run_resized (it : Interpreter K) {xs ys : List (Symbol K)} (hxs : List.Forall₂ Symbol.SameButRadius xs ys) :
    (∀ t u : Turtle K, t.SameButRadius u → it.RunsAlike Turtle.SameButRadius xs ys ⟨t, []⟩ ⟨u, []⟩) ∧
      ∀ p q : Population K, p.SameButRadius q → it.RunsAlike Population.SameButRadius xs ys ⟨p, []⟩ ⟨q, []⟩ :=
  ⟨fun _ _ htu => runsAlike_of_ignoresRadius ignoresRadius_turtle hxs ⟨htu, .nil⟩,
    fun _ _ hpq => runsAlike_of_ignoresRadius ignoresRadius_population hxs ⟨hpq, .nil⟩⟩

/-- Two turtles that draw a triangle between tubes of different widths, one of them after a save. -/
theorem run_resized_wide :
    let narrow : Turtle Float := .ofConfig .standard
    let wide : Turtle Float := narrow.withRadius 2
    let program : Float → List (Symbol Float) := fun radius =>
      [.bare .startPoly, .bare .forward, .bare .push, .ofAmount .setRadius radius, .bare .forward, .ofAmount .trunk 2,
        .bare .considerData, .bare .endPoly]
    List.Forall₂ Symbol.SameButRadius (program 1) (program 3) ∧
      Interpreter.standard.RunsAlike Turtle.SameButRadius (program 1) (program 3) ⟨narrow, []⟩ ⟨wide, []⟩ ∧
      Interpreter.standard.RunsAlike Population.SameButRadius (program 1) (program 3)
        ⟨.ofTurtle (.single 0) .standard narrow, []⟩ ⟨.ofTurtle (.single 0) .standard wide, []⟩ ∧
      (Interpreter.standard.run (program 1) ⟨narrow, []⟩).result = .ok ⟨7, 13, 1, 1⟩ := by
  intro narrow wide program
  have hprogram : List.Forall₂ Symbol.SameButRadius (program 1) (program 3) :=
    .cons (.same _) (.cons (.same _) (.cons (.same _) (.cons (.radius 1 3)
      (.cons (.same _) (.cons (.same _) (.cons (.same _) (.cons (.same _) .nil)))))))
  have hresult : (Interpreter.standard.run (program 1) ⟨narrow, []⟩).result = .ok ⟨7, 13, 1, 1⟩ := rfl
  obtain ⟨hturtle, hpopulation⟩ := run_resized .standard hprogram
  exact ⟨hprogram, hturtle _ _ ⟨2, rfl⟩, hpopulation _ _ (sameButRadius_ofTurtle _ _ ⟨2, rfl⟩), hresult⟩

end Turtles

end Foliage
