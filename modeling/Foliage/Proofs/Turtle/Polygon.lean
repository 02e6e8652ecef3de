import Foliage.Proofs.Interpreter.Isolation
import Foliage.Proofs.Interpreter.Strokes
import Mathlib.Data.List.Induction

/-!
# Polygons across brackets

A turtle that begins an outline, and closes it in no bracket, draws the polygon of the places it has come to by its own
moves: those that are in no bracket either. What the turtle does in brackets, where it may begin, close or abandon
outlines as it likes, goes on above the saved turtle with the outline, and comes to nothing when that one is restored.

`m.below? n` is the turtle `n` saves below the live one. Behind a program that has opened `n` brackets since the outline
was begun, the turtle with the outline is the one at `n` (`records_of_executes`); the program is followed from its end,
symbol by symbol. The polygon at the end of a balanced program is read off this (`closed_polygon`).
-/

namespace Foliage

/-- A move, with or without a tube. -/
def Tag.isMove : Tag → Bool
  | .forward | .skip | .trunk => true
  | _ => false

section Programs

variable {K : Type}

/-- Where the moves of a program are that are in no bracket of it. -/
def ownMoves (xs : List (Symbol K)) : List Nat :=
  (List.range xs.length).filter fun i => depthAt 0 xs i = 0 && xs[i]?.any fun x => x.tag.isMove

/-- A program neither begins nor closes an outline outside of its brackets. -/
def KeepsOutline (xs : List (Symbol K)) : Prop :=
  ∀ i x, xs[i]? = some x → depthAt 0 xs i = 0 → x.tag ≠ .startPoly ∧ x.tag ≠ .endPoly

theorem ownMoves_concat (xs : List (Symbol K)) (x : Symbol K) :
    ownMoves (xs ++ [x]) =
      ownMoves xs ++ if depthAt 0 xs xs.length = 0 ∧ x.tag.isMove = true then [xs.length] else [] := by
  rw [ownMoves, List.length_append, List.length_singleton, List.range_succ, List.filter_append, ownMoves]
  congr 1
  · refine List.filter_congr fun i hi => ?_
    have hlt := List.mem_range.mp hi
    rw [depthAt_append 0 (Nat.le_of_lt hlt), List.getElem?_append_left hlt]
  · rw [List.filter_singleton, depthAt_append 0 (Nat.le_refl _), List.getElem?_concat_length]
    simp

theorem KeepsOutline.left {xs ys : List (Symbol K)} (h : KeepsOutline (xs ++ ys)) : KeepsOutline xs := by
  intro i x hx hdepth
  have hlt := (List.getElem?_eq_some_iff.mp hx).1
  refine h i x ?_ ?_
  · rw [List.getElem?_append_left hlt, hx]
  · rw [depthAt_append 0 (Nat.le_of_lt hlt), hdepth]

end Programs

/-- The turtle so many saves below the live one. -/
def Machine.below? {τ : Type} (m : Machine τ) (n : Nat) : Option τ := (m.turtle :: m.stack)[n]?

section Runs

variable {τ K : Type} [TurtleLike τ K] {it : Interpreter K}

open Interpreter

theorem below?_of_push {x : Symbol K} {m m' : Machine τ} {fs : List (Face K)} (h : it.perform x m = .ok (m', fs))
    (hx : x.tag = .push) (n : Nat) : m'.below? (n + 1) = m.below? n := by
  obtain ⟨rfl, -⟩ := perform_push h hx
  rfl

theorem below?_of_pop {x : Symbol K} {m m' : Machine τ} {fs : List (Face K)} (h : it.perform x m = .ok (m', fs))
    (hx : x.tag = .pop) (n : Nat) : m'.below? n = m.below? (n + 1) := by
  obtain ⟨hstack, -⟩ := perform_pop h hx
  rw [Machine.below?, ← hstack]
  rfl

theorem below?_of_plain {x : Symbol K} {m m' : Machine τ} {fs : List (Face K)} (h : it.perform x m = .ok (m', fs))
    (hpush : x.tag ≠ .push) (hpop : x.tag ≠ .pop) (n : Nat) : m'.below? (n + 1) = m.below? (n + 1) := by
  rw [Machine.below?, Machine.below?, List.getElem?_cons_succ, List.getElem?_cons_succ, perform_plain h hpush hpop]

end Runs

variable {K : Type} [Scalar K] {it : Interpreter K}

open Interpreter

/-- The places to which a turtle comes by the moves of a program that are in no bracket, in their order. -/
def Interpreter.places (it : Interpreter K) (xs : List (Symbol K)) (m : Machine (Turtle K)) : List (Vec K) :=
  (ownMoves xs).map fun i => (it.run (xs.take (i + 1)) m).machine.turtle.position

theorem places_concat {xs : List (Symbol K)} {x : Symbol K} {m m' : Machine (Turtle K)} {fs : List (Face K)}
    (h : it.Executes (xs ++ [x]) m fs m') :
    it.places (xs ++ [x]) m = it.places xs m ++
      if depthAt 0 xs xs.length = 0 ∧ x.tag.isMove = true then [m'.turtle.position] else [] := by
  have hend : (it.run ((xs ++ [x]).take (xs.length + 1)) m).machine = m' := by
    rw [List.take_of_length_le (by simp), (run_of_executes h).1]
  rw [places, ownMoves_concat, List.map_append, places]
  congr 1
  · refine List.map_congr_left fun i hi => ?_
    have hlt := List.mem_range.mp (List.mem_filter.mp hi).1
    rw [List.take_append_of_le_length hlt]
  · split
    · rw [List.map_singleton, hend]
    · rfl

/-- At a symbol that is no bracket and no end of an outline, a turtle that records goes on recording, and adds to its
outline where it comes to by a move. -/
theorem outline_of_perform {x : Symbol K} {m m' : Machine (Turtle K)} {fs : List (Face K)}
    (h : it.perform x m = .ok (m', fs)) (hpush : x.tag ≠ .push) (hpop : x.tag ≠ .pop)
    (hplain : x.tag ≠ .startPoly ∧ x.tag ≠ .endPoly) (hrecording : m.turtle.recording = true) :
    m'.turtle.recording = true ∧
      m'.turtle.outline = m.turtle.outline ++ if x.tag.isMove then [m'.turtle.position] else [] := by
  obtain ⟨tag, amount⟩ := x
  cases perform_ok_iff.mp h with
  | act action ha =>
    cases tag
    case startPoly => exact absurd rfl hplain.1
    case endPoly => exact absurd rfl hplain.2
    case forward | skip | trunk =>
      cases ha
      exact ⟨hrecording, if_pos hrecording⟩
    case turn | horiz =>
      cases ha
      exact ⟨hrecording, (List.append_nil _).symm⟩
    case setRadius =>
      obtain ⟨radius, -, rfl⟩ := Option.map_eq_some_iff.mp ha
      exact ⟨hrecording, (List.append_nil _).symm⟩
    all_goals cases ha
  | stamp s fs htag =>
    obtain rfl : tag = .ornament := htag
    exact ⟨hrecording, (List.append_nil _).symm⟩
  | steer f _ hf => cases hf
  | push htag => exact absurd htag hpush
  | pop t rest htag => exact absurd htag hpop
  | idle htag =>
    obtain rfl : tag = .setRadius := htag
    exact ⟨hrecording, (List.append_nil _).symm⟩
  | pass hmeaningless =>
    cases tag
    case nonterminal | ornament | considerData => exact ⟨hrecording, (List.append_nil _).symm⟩
    all_goals cases hmeaningless

/-- So many saves below the live turtle there is one that records and has the given outline. -/
def Machine.Records (m : Machine (Turtle K)) (n : Nat) (outline : List (Vec K)) : Prop :=
  ∃ t, m.below? n = some t ∧ t.recording = true ∧ t.outline = outline

/-- **One symbol of an outline.** With `n` brackets open since the outline was begun, the turtle with the outline stays
where it is; the outline grows by a move when no bracket is open. -/
theorem records_of_perform {x : Symbol K} {m m' : Machine (Turtle K)} {fs : List (Face K)}
    (h : it.perform x m = .ok (m', fs)) {n n' : Nat} {outline : List (Vec K)} (hm : m.Records n outline)
    (hn : ((n' : Int) + if x.tag = .pop then 1 else 0) = n + if x.tag = .push then 1 else 0)
    (hplain : n = 0 → x.tag ≠ .startPoly ∧ x.tag ≠ .endPoly) :
    m'.Records n' (outline ++ if n = 0 ∧ x.tag.isMove = true then [m'.turtle.position] else []) := by
  obtain ⟨t, ht, hrecording, rfl⟩ := hm
  by_cases hpush : x.tag = .push
  · obtain rfl : n' = n + 1 := by
      rw [if_neg (by simp [hpush]), if_pos hpush] at hn
      omega
    exact ⟨t, (below?_of_push h hpush n).trans ht, hrecording, by simp [hpush, Tag.isMove]⟩
  by_cases hpop : x.tag = .pop
  · obtain rfl : n' + 1 = n := by
      rw [if_pos hpop, if_neg hpush] at hn
      omega
    exact ⟨t, (below?_of_pop h hpop n').trans ht, hrecording, by simp⟩
  obtain rfl : n' = n := by
    rw [if_neg hpop, if_neg hpush] at hn
    omega
  cases n' with
  | zero =>
    obtain rfl : m.turtle = t := Option.some.inj ht
    obtain ⟨hrecording', houtline⟩ := outline_of_perform h hpush hpop (hplain rfl) hrecording
    exact ⟨m'.turtle, rfl, hrecording', by simpa using houtline⟩
  | succ n => exact ⟨t, (below?_of_plain h hpush hpop n).trans ht, hrecording, by simp⟩

/-- **An outline grows by the moves outside of brackets.** Behind the begin of an outline and a program that keeps it,
as many saves below the live turtle as the program has left brackets open, there is a turtle that records: its outline
is the place where it was begun and then the places of the moves that are in no bracket. -/
theorem records_of_executes {s : List (Symbol K)} {a : Option K} {m m' : Machine (Turtle K)} {fs : List (Face K)}
    (h : it.Executes (⟨.startPoly, a⟩ :: s) m fs m') (hcovered : ∀ i ≤ s.length, 0 ≤ depthAt 0 s i)
    (hkeeps : KeepsOutline s) :
    ∃ n : Nat, depthAt 0 s s.length = n ∧
      m'.Records n (m.turtle.position :: it.places (⟨.startPoly, a⟩ :: s) m) := by
  induction s using List.reverseRecOn generalizing m' fs with
  | nil =>
    obtain ⟨m₁, fs₁, gs, hbegin, hnil, -⟩ := executes_cons_iff.mp h
    cases hnil
    cases hbegin
    exact ⟨0, rfl, _, rfl, rfl, rfl⟩
  | append_singleton s x ih =>
    rw [← List.cons_append] at h
    obtain ⟨fs₁, m₁, gs, hbefore, hx, -⟩ := executes_concat_iff.mp h
    have hcovered' : ∀ i ≤ s.length, 0 ≤ depthAt 0 s i := by
      intro i hi
      rw [← depthAt_append 0 hi [x]]
      exact hcovered i (by simp; omega)
    obtain ⟨n, hn, hrecords⟩ := ih hbefore hcovered' hkeeps.left
    -- the begin of the outline is no bracket
    have hshift : depthAt 0 ((⟨.startPoly, a⟩ : Symbol K) :: s) (s.length + 1) = depthAt 0 s s.length := by
      simp [depthAt, pushes_cons, pops_cons]
    have hat : (s ++ [x])[s.length]? = some x := List.getElem?_concat_length
    have hnext := depthAt_succ 0 hat
    rw [depthAt_append 0 (Nat.le_refl _), hn] at hnext
    obtain ⟨n', hn'⟩ := Int.eq_ofNat_of_zero_le (hcovered (s.length + 1) (by simp))
    have hplain : n = 0 → x.tag ≠ .startPoly ∧ x.tag ≠ .endPoly := by
      rintro rfl
      exact hkeeps s.length x List.getElem?_concat_length (by rw [depthAt_append 0 (Nat.le_refl _), hn]; rfl)
    have hgrown := records_of_perform hx hrecords (hn' ▸ hnext) hplain
    refine ⟨n', by rw [List.length_append, List.length_singleton, hn'], ?_⟩
    rw [← List.cons_append, places_concat h, List.length_cons, hshift, hn, ← List.cons_append]
    simpa using hgrown

/-- The end of an outline draws it if it is a polygon, and leaves a turtle without one. -/
theorem polygon_of_perform {x : Symbol K} {m m' : Machine (Turtle K)} {fs : List (Face K)}
    (h : it.perform x m = .ok (m', fs)) (hx : x.tag = .endPoly) :
    fs = (if 3 ≤ m.turtle.outline.length then [m.turtle.outline] else []) ∧
      m'.turtle.recording = false ∧ m'.turtle.outline = [] := by
  obtain ⟨tag, amount⟩ := x
  obtain rfl : tag = .endPoly := hx
  cases h
  refine ⟨?_, rfl, rfl⟩
  show m.turtle.closeOutline.2.faces.toList = _
  rw [Turtle.closeOutline]
  split <;> rfl

/-- **A polygon is made of the moves outside of brackets.** Run the begin of an outline, a balanced program that neither
begins nor closes one outside of its brackets, and the end of the outline, on any turtle with any turtles saved. When
the run succeeds, its last symbol draws one face: the place where the turtle was at first and then, in order, those to
which it has come by the moves in no bracket, if these are three points or more; with fewer points it draws nothing.
Afterwards the turtle does not record and has an empty outline. -/
theorem closed_polygon {s : List (Symbol K)} {a b : Option K} {m : Machine (Turtle K)} {report : Report}
    (hbalanced : Balanced s) (hkeeps : KeepsOutline s)
    (hr : (it.run (⟨.startPoly, a⟩ :: s ++ [⟨.endPoly, b⟩]) m).result = .ok report) :
    let program := ⟨.startPoly, a⟩ :: s ++ [⟨.endPoly, b⟩]
    let corners := m.turtle.position :: it.places program m
    it.drawnAt program m (s.length + 1) = (if 3 ≤ corners.length then [corners] else []) ∧
      (it.run program m).machine.turtle.recording = false ∧ (it.run program m).machine.turtle.outline = [] := by
  intro program corners
  obtain ⟨fs, m', h⟩ := run_ok_iff.mp ⟨report, hr⟩
  obtain ⟨fs₁, m₁, gs, hbody, hclose, -⟩ := executes_concat_iff.mp h
  have hlevel : ∀ i ≤ s.length, 0 ≤ depthAt 0 s i := by
    intro i _
    have := hbalanced.covered i
    rw [depthAt]
    omega
  obtain ⟨n, hn, t, ht, -, houtline⟩ := records_of_executes hbody hlevel hkeeps
  obtain rfl : n = 0 := by
    have := hbalanced.closed
    rw [depthAt_length] at hn
    omega
  obtain rfl : m₁.turtle = t := Option.some.inj ht
  -- the end of the outline is no move
  have hcorners : corners = m₁.turtle.outline := by
    rw [houtline]
    show m.turtle.position :: it.places (⟨.startPoly, a⟩ :: s ++ [⟨.endPoly, b⟩]) m = _
    rw [places_concat h]
    simp [Tag.isMove]
  obtain ⟨hdrawn, hrecording, hempty⟩ := polygon_of_perform hclose rfl
  rw [(run_of_executes h).1, hcorners, ← hdrawn]
  exact ⟨drawnAt_of_perform hbody hclose [], hrecording, hempty⟩

/-- A turtle that has recorded before draws a triangle between brackets in which it closes an outline of two points and
abandons another one. -/
theorem closed_polygon_triangle :
    let s : List (Symbol Float) := [
      .ofAmount .skip 1, .bare .push, .bare .startPoly, .bare .push, .bare .forward, .bare .pop, .bare .skip,
      .bare .endPoly, .bare .pop, .ofAmount .trunk 2, .bare .push, .bare .startPoly, .bare .forward, .bare .pop]
    let old : Turtle Float := .ofConfig .standard
    let m : Machine (Turtle Float) := ⟨{ old with recording := true, outline := [⟨9, 9, 9⟩] }, [old]⟩
    let program := ⟨.startPoly, none⟩ :: s ++ [⟨.endPoly, none⟩]
    Balanced s ∧ KeepsOutline s ∧ (Interpreter.standard.run program m).result = .ok ⟨16, 13, 0, 3⟩ ∧
      Interpreter.standard.drawnAt program m 15 = [[⟨0, 0, 0⟩, ⟨0, 0, 1⟩, ⟨0, 0, 3⟩]] ∧
      (Interpreter.standard.run program m).machine.turtle.recording = false := by
  intro s old m program
  have hbalanced : Balanced s := balanced_iff_closes.mpr ⟨2, of_decide_eq_true rfl⟩
  have hkeeps : KeepsOutline s := by
    have hall : ∀ i < s.length, ∀ x ∈ s[i]?, depthAt 0 s i = 0 → x.tag ≠ .startPoly ∧ x.tag ≠ .endPoly := by
      decide +kernel
    exact fun i x hx => hall i (List.getElem?_eq_some_iff.mp hx).1 x hx
  have hr : (Interpreter.standard.run program m).result = .ok ⟨16, 13, 0, 3⟩ := by decide +kernel
  have hplaces : Interpreter.standard.places program m = [⟨0, 0, 1⟩, ⟨0, 0, 3⟩] := by decide +kernel
  obtain ⟨hdrawn, hrecording, -⟩ := closed_polygon hbalanced hkeeps hr
  rw [hplaces] at hdrawn
  exact ⟨hbalanced, hkeeps, hr, hdrawn, hrecording⟩

end Foliage
