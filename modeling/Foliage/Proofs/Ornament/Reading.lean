import Foliage.Ornament.Reader
import Foliage.Proofs.Ornament.Stamps
import Foliage.Proofs.Population.Ensemble

/-!
# Ornaments that were read

A triangle of a text may name vertices that come after it, so whether they exist is decided at the end, for all corners
of all triangles (`whole_of_parse`). Hence an ornament that was read can be given at every position and with every
heading, one face for each of its triangles in their order (`places_of_whole`). A run with such an ornament is never
stopped by it, and each ornament symbol draws all faces of the ornament for every turtle that is there
(`parsed_stamps`).
-/

namespace Foliage

variable {τ K : Type} [Scalar K]

/-! ## Reading -/

omit [Scalar K] in
/-- A triangle misses no vertex when all its corners are vertices. -/
theorem missing?_eq_none_iff {d : Ornament.Draft K} {t : Nat × Triangle} :
    d.missing? t = none ↔ ∀ k ∈ t.2.corners, k < d.vertices.size := by
  simp [Ornament.Draft.missing?]

/-- An ornament that was read has every vertex that its triangles name. -/
theorem whole_of_parse [Numeral K] {text : String} {scale : K} {o : Ornament K}
    (h : Ornament.parse text scale = .ok o) : o.Whole := by
  unfold Ornament.parse at h
  split at h
  · cases h
  · rename_i d _
    split at h
    · cases h
    · rename_i hnone
      obtain rfl := Except.ok.inj h
      intro t ht k hk
      obtain ⟨p, hp, rfl⟩ := List.mem_map.mp ht
      exact missing?_eq_none_iff.mp (List.findSome?_eq_none_iff.mp hnone p hp) k hk

/-! ## Projecting -/

/-- Where a vertex of an ornament comes to be: turned by the aim of the ornament and moved to the position. -/
def Ornament.place (o : Ornament K) (position heading v : Vec K) : Vec K := position + (o.aim heading).apply v

/-- The face has three corners: the vertices that a triangle names, where they come to be. -/
def Ornament.Places (o : Ornament K) (position heading : Vec K) (t : Triangle) (f : Face K) : Prop :=
  ∃ u v w, o.vertices[t.a]? = some u ∧ o.vertices[t.b]? = some v ∧ o.vertices[t.c]? = some w ∧
    f = [o.place position heading u, o.place position heading v, o.place position heading w]

theorem places_of_mapM {o : Ornament K} {position heading : Vec K} {t : Triangle} {f : Face K}
    (h : (t.corners.mapM fun k => o.vertices[k]?.map fun v => o.place position heading v) = some f) :
    o.Places position heading t f := by
  rcases mapM_eq_some_iff.mp h with _ | ⟨ha, _ | ⟨hb, _ | ⟨hc, _ | _⟩⟩⟩
  obtain ⟨u, hu, rfl⟩ := Option.map_eq_some_iff.mp ha
  obtain ⟨v, hv, rfl⟩ := Option.map_eq_some_iff.mp hb
  obtain ⟨w, hw, rfl⟩ := Option.map_eq_some_iff.mp hc
  exact ⟨u, v, w, hu, hv, hw, rfl⟩

/-- A whole ornament is given triangle by triangle. -/
theorem places_of_whole {o : Ornament K} (h : o.Whole) (position heading : Vec K) :
    ∃ faces, o.project? position heading = some faces ∧
      List.Forall₂ (o.Places position heading) o.triangles faces := by
  obtain ⟨faces, hfaces⟩ := Option.isSome_iff_exists.mp (total_of_whole h position heading)
  exact ⟨faces, hfaces, (mapM_eq_some_iff.mp hfaces).imp fun t f hf => places_of_mapM hf⟩

/-! ## Stamping in a run -/

/-- The faces of a stamp at the pose of a turtle. -/
def Turtle.stampOf (s : Stamp K) (t : Turtle K) : List (Face K) := (t.stamp? s).getD []

theorem length_stampOf {o : Ornament K} (h : o.Whole) (t : Turtle K) :
    (t.stampOf o.stamp).length = o.triangles.length := by
  obtain ⟨faces, hfaces, hplaces⟩ := places_of_whole h t.position t.frame.direction
  rw [hplaces.length_eq, Turtle.stampOf, Turtle.stamp?]
  exact congrArg (fun given : Option (List (Face K)) => (given.getD []).length) hfaces

variable [TurtleLike τ K] {it : Interpreter K} {xs : List (Symbol K)} {m : Machine τ}

open Interpreter

/-- A stamp that has faces to give wherever it is placed is given for each single turtle. -/
theorem perform_of_ornament (e : Ensemble τ K) {s : Stamp K} (hs : s.Total) {x : Symbol K} (hx : x.tag = .ornament)
    (ho : it.ornament = some s) (m : Machine τ) :
    ∃ m', it.perform x m = .ok (m', (e.turtles m.turtle).flatMap (Turtle.stampOf s)) := by
  refine ⟨m, perform_ok_iff.mpr (.stamp s _ hx ho ?_)⟩
  rw [e.stamp, mapM_of_isSome (fun u _ => isSome_turtle_stamp hs u) [], Option.map_some, List.flatMap_def]
  rfl

/-- Such a stamp never ends a run. -/
theorem not_panicked (e : Ensemble τ K) {s : Stamp K} (hs : s.Total) (ho : it.ornament = some s)
    (xs : List (Symbol K)) (m : Machine τ) : ¬ (it.run xs m).Panicked := by
  rintro ⟨i, hi⟩
  rcases executes_or_stops it xs m with ⟨fs, m', h⟩ | ⟨pre, x, post, fs, m', fault, rfl, h, hx⟩
  · rw [(run_of_executes h).2.2] at hi
    cases hi
  · rw [(run_of_stops h hx post).2.2] at hi
    obtain ⟨-, rfl⟩ := RunError.mk.inj (Except.error.inj hi)
    obtain ⟨htag, -⟩ := perform_eq_brokenOrnament_iff.mp hx
    obtain ⟨m'', hm''⟩ := perform_of_ornament e hs htag ho m'
    rw [hx] at hm''
    cases hm''

/-- A run is never stopped by its ornament, and draws all of it at every ornament symbol for each turtle that is there:
none if the run does not get to the symbol. -/
structure Interpreter.Stamps (it : Interpreter K) (e : Ensemble τ K) (o : Ornament K) (xs : List (Symbol K))
    (m : Machine τ) : Prop where
  unbroken : ¬ (it.run xs m).Panicked
  drawn : ∀ i x, xs[i]? = some x → x.tag = .ornament →
    it.drawnAt xs m i = (it.turtlesAt e xs m i).flatMap (Turtle.stampOf o.stamp)
  counted : ∀ i x, xs[i]? = some x → x.tag = .ornament →
    (it.drawnAt xs m i).length = o.triangles.length * (it.turtlesAt e xs m i).length

theorem stamps_of_whole (e : Ensemble τ K) {o : Ornament K} (h : o.Whole) (ho : it.ornament = some o.stamp)
    (xs : List (Symbol K)) (m : Machine τ) : it.Stamps e o xs m := by
  have hdrawn : ∀ i x, xs[i]? = some x → x.tag = .ornament →
      it.drawnAt xs m i = (it.turtlesAt e xs m i).flatMap (Turtle.stampOf o.stamp) :=
    fun i x hi hx => drawnAt_each_turtle (perform_of_ornament e (total_of_whole h) hx ho) hi
  refine ⟨not_panicked e (total_of_whole h) ho xs m, hdrawn, fun i x hi hx => ?_⟩
  rw [hdrawn i x hi hx]
  exact length_each_turtle (length_stampOf h) _

/-- **Ornaments that were read can always be stamped.** An ornament that was read from a text is given at every position
and with every heading: one face of three corners for each of its triangles, in their order, made from the vertices that
the triangle names, which exist. No run of an interpreter with this ornament, on a turtle or on a population with any
turtles saved, is stopped by it, and every ornament symbol that the run gets to draws as many faces as the ornament has
triangles for each member that is there. -/
theorem parsed_stamps [Numeral K] {text : String} {scale : K} {o : Ornament K}
    (h : Ornament.parse text scale = .ok o) :
    (∀ position heading, ∃ faces, o.project? position heading = some faces ∧ faces.length = o.triangles.length ∧
      List.Forall₂ (o.Places position heading) o.triangles faces) ∧
    ∀ (maxStackDepth : Nat) (strict : Bool) (xs : List (Symbol K)),
      let it : Interpreter K := ⟨maxStackDepth, strict, some o.stamp⟩
      (∀ m : Machine (Turtle K), it.Stamps Turtle.alone o xs m) ∧
        ∀ m : Machine (Population K), it.Stamps Population.together o xs m := by
  have hwhole := whole_of_parse h
  refine ⟨fun position heading => ?_, fun maxStackDepth strict xs => ?_⟩
  · obtain ⟨faces, hfaces, hplaces⟩ := places_of_whole hwhole position heading
    exact ⟨faces, hfaces, hplaces.length_eq.symm, hplaces⟩
  · exact ⟨stamps_of_whole Turtle.alone hwhole rfl xs, stamps_of_whole Population.together hwhole rfl xs⟩

/-- A text with a triangle in front of its vertices, one of which is named with a suffix. -/
theorem parsed_stamps_petal :
    let text := "f 1/7 2 3\nv 0 0 0\nv 1 0 0 9\nv 0 1 0\n"
    let xs : List (Symbol Float) := [.bare .forward, .bare .ornament, .bare .pop, .bare .ornament]
    let m : Machine (Turtle Float) := ⟨.ofConfig .standard, []⟩
    ∃ petal : Ornament Float, Ornament.parse text 2 = .ok petal ∧ petal.triangles = [⟨0, 1, 2⟩] ∧
      petal.vertices = #[⟨0, 0, 0⟩, ⟨2, 0, 0⟩, ⟨0, 0, 2⟩] ∧
      (∃ faces, petal.project? 0 0 = some faces ∧ faces.length = 1) ∧
      ((⟨4, true, some petal.stamp⟩ : Interpreter Float).drawnAt xs m 1).length = 1 := by
  intro text xs m
  have hread : (Ornament.parse text (2 : Float)).toOption.any (fun petal => petal.triangles = [⟨0, 1, 2⟩] ∧
      petal.vertices = #[⟨0, 0, 0⟩, ⟨2, 0, 0⟩, ⟨0, 0, 2⟩]) = true := by
    decide +kernel
  cases hparse : Ornament.parse text (2 : Float) with
  | error e =>
    rw [hparse] at hread
    cases hread
  | ok petal =>
    rw [hparse] at hread
    obtain ⟨htriangles, hvertices⟩ := of_decide_eq_true hread
    obtain ⟨hproject, hrun⟩ := parsed_stamps hparse
    obtain ⟨faces, hfaces, hlength, -⟩ := hproject 0 0
    have hcounted := ((hrun 4 true xs).1 m).counted 1 _ rfl rfl
    rw [htriangles] at hlength hcounted
    exact ⟨petal, rfl, htriangles, hvertices, ⟨faces, hfaces, hlength⟩, hcounted⟩

end Foliage
