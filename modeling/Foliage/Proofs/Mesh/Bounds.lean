import Foliage.Mesh
import Foliage.Proofs.Double.Order

/-!
# Bounds of a mesh

The bounds of a mesh are found vertex by vertex, on each axis by itself (`foldl_widen_along`). A comparison with an
undefined coordinate (a NaN) fails on either side of it, so that an undefined coordinate takes the place of the bound,
and the next coordinate takes its place in turn: what came before is forgotten. Behind every vertex the bound is the
first, in the order of the comparison, of the coordinates since the last undefined one (`leads_foldl`).

So the bounds span the coordinates since the last undefined one, and all of them on an axis where each is defined
(`bounds_span`).
-/

namespace Foliage

/-- The axes of space. -/
inductive Axis where
  | x
  | y
  | z

/-- The coordinate of a point on an axis. -/
def Vec.along {K : Type} (v : Vec K) : Axis → K
  | .x => v.x
  | .y => v.y
  | .z => v.z

/-- On an axis, the bounds are the least and the greatest of some numbers. -/
def Bounds.Spans (box : Bounds Float) (axis : Axis) (cs : List Float) : Prop :=
  IsLeast {c | c ∈ cs} (box.lo.along axis) ∧ IsGreatest {c | c ∈ cs} (box.hi.along axis)

namespace Mesh

/-- The coordinates of the vertices on an axis, in their order. -/
def coordinates {K : Type} (m : Mesh K) (axis : Axis) : List K := m.vertices.toList.map fun v => v.along axis

/-- The numbers behind the last undefined one. -/
def sinceUndefined (cs : List Float) : List Float := cs.rtakeWhile fun c => !c.isNaN

/-! ## Numbers behind the last undefined one -/

variable {cs : List Float} {c : Float}

theorem sinceUndefined_concat_defined (hc : c.isNaN = false) :
    sinceUndefined (cs ++ [c]) = sinceUndefined cs ++ [c] :=
  List.rtakeWhile_concat_pos _ _ _ (congrArg not hc)

theorem sinceUndefined_concat_undefined (hc : c.isNaN = true) : sinceUndefined (cs ++ [c]) = [] :=
  List.rtakeWhile_concat_neg _ _ _ (by rw [hc]; exact Bool.false_ne_true)

theorem sinceUndefined_of_defined (h : ∀ c ∈ cs, c.isNaN = false) : sinceUndefined cs = cs :=
  List.rtakeWhile_eq_self_iff.mpr fun c hc => congrArg not (h c hc)

theorem isNaN_of_mem_sinceUndefined (h : c ∈ sinceUndefined cs) : c.isNaN = false := by
  have hdefined := List.mem_rtakeWhile_imp h
  exact (Bool.not_eq_true' _).mp hdefined

/-! ## The lead -/

/-- A comparison `lt` that undefined numbers fail, and the order `le` of the others that belongs to it. -/
structure Compares (lt le : Float → Float → Prop) : Prop where
  not_lt : ∀ {a b}, a.isNaN = true ∨ b.isNaN = true → ¬ lt a b
  le_of_lt : ∀ {a b}, lt a b → le a b
  le_of_not_lt : ∀ {a b}, a.isNaN = false → b.isNaN = false → ¬ lt a b → le b a
  trans : ∀ {a b c}, a.isNaN = false → b.isNaN = false → c.isNaN = false → le a b → le b c → le a c

/-- The first one of some numbers in an order, or an undefined number when there are none. -/
def Leads (le : Float → Float → Prop) (cs : List Float) (lead : Float) : Prop :=
  cs = [] ∧ lead.isNaN = true ∨ lead ∈ cs ∧ ∀ c ∈ cs, le lead c

section Lead

variable {lt le : Float → Float → Prop} {lead : Float}

theorem Compares.refl (h : Compares lt le) (hc : c.isNaN = false) : le c c := by
  by_cases hlt : lt c c
  · exact h.le_of_lt hlt
  · exact h.le_of_not_lt hc hc hlt

/-- The same comparison the other way round. -/
theorem Compares.swap (h : Compares lt le) : Compares (fun a b => lt b a) (fun a b => le b a) where
  not_lt hab := h.not_lt hab.symm
  le_of_lt hlt := h.le_of_lt hlt
  le_of_not_lt ha hb hlt := h.le_of_not_lt hb ha hlt
  trans ha hb hc hab hbc := h.trans hc hb ha hbc hab

theorem Leads.isNaN (h : Leads le [] lead) : lead.isNaN = true := by
  rcases h with ⟨-, hlead⟩ | ⟨hmem, -⟩
  · exact hlead
  · cases hmem

theorem Compares.leads_singleton (h : Compares lt le) (hc : c.isNaN = false) : Leads le [c] c :=
  .inr ⟨List.mem_singleton_self c, List.forall_mem_singleton.mpr (h.refl hc)⟩

variable [DecidableRel lt]

/-- **One number more.** An undefined number takes the lead, and so does any number behind it; a defined one takes the
lead of defined ones unless the lead is before it. -/
theorem Leads.concat (hle : Compares lt le) (h : Leads le (sinceUndefined cs) lead) (c : Float) :
    Leads le (sinceUndefined (cs ++ [c])) (if lt lead c then lead else c) := by
  cases hc : c.isNaN with
  | true =>
    rw [sinceUndefined_concat_undefined hc, if_neg (hle.not_lt (.inr hc))]
    exact .inl ⟨rfl, hc⟩
  | false =>
    rw [sinceUndefined_concat_defined hc]
    rcases h with ⟨hnone, hlead⟩ | ⟨hmem, hbefore⟩
    · rw [hnone, if_neg (hle.not_lt (.inl hlead))]
      exact hle.leads_singleton hc
    · right
      split
      · rename_i hlt
        refine ⟨List.mem_append_left _ hmem, List.forall_mem_append.mpr ⟨hbefore, ?_⟩⟩
        exact List.forall_mem_singleton.mpr (hle.le_of_lt hlt)
      · rename_i hlt
        have hlead := isNaN_of_mem_sinceUndefined hmem
        refine ⟨List.mem_concat_self, List.forall_mem_append.mpr ⟨fun c' hc' => ?_, ?_⟩⟩
        · have hc'' := isNaN_of_mem_sinceUndefined hc'
          exact hle.trans hc hlead hc'' (hle.le_of_not_lt hlead hc hlt) (hbefore c' hc')
        · exact List.forall_mem_singleton.mpr (hle.refl hc)

/-- Behind all numbers, one of those since the last undefined one is in the lead. -/
theorem leads_foldl (hle : Compares lt le) (first : Float) (rest : List Float) :
    Leads le (sinceUndefined (first :: rest)) (rest.foldl (fun a b => if lt a b then a else b) first) := by
  induction rest using List.reverseRecOn with
  | nil =>
    cases hfirst : first.isNaN with
    | true =>
      have hnone : sinceUndefined ([] ++ [first]) = [] := sinceUndefined_concat_undefined hfirst
      exact .inl ⟨hnone, hfirst⟩
    | false =>
      have hone : sinceUndefined [first] = [first] :=
        sinceUndefined_of_defined (List.forall_mem_singleton.mpr hfirst)
      rw [hone]
      exact hle.leads_singleton hfirst
  | append_singleton rest c ih =>
    rw [List.foldl_append, List.foldl_cons, List.foldl_nil, ← List.cons_append]
    exact ih.concat hle c

end Lead

open Double in
theorem compares_double : Compares (· < ·) (· ≤ ·) where
  not_lt h := not_lt_of_isNaN h
  le_of_lt hlt := le_iff_compare.mpr ⟨.lt, lt_iff_compare.mp hlt, rfl⟩
  le_of_not_lt ha hb hlt := (le_iff_not_lt hb ha).mpr hlt
  trans ha hb hc hab hbc :=
    (le_iff_rank ha hc).mpr (((le_iff_rank ha hb).mp hab).trans ((le_iff_rank hb hc).mp hbc))

/-! ## The bounds -/

variable {K : Type} [Scalar K]

/-- The bounds on an axis depend on the coordinates on this axis alone. -/
theorem foldl_widen_along (b : Bounds K) (vs : List (Vec K)) (axis : Axis) :
    (vs.foldl Bounds.widen b).lo.along axis = (vs.map fun v => v.along axis).foldl Scalar.lesser (b.lo.along axis) ∧
      (vs.foldl Bounds.widen b).hi.along axis =
        (vs.map fun v => v.along axis).foldl Scalar.greater (b.hi.along axis) := by
  induction vs generalizing b with
  | nil => exact ⟨rfl, rfl⟩
  | cons v vs ih =>
    have hlo : (Bounds.widen b v).lo.along axis = Scalar.lesser (b.lo.along axis) (v.along axis) := by
      cases axis <;> rfl
    have hhi : (Bounds.widen b v).hi.along axis = Scalar.greater (b.hi.along axis) (v.along axis) := by
      cases axis <;> rfl
    rw [List.foldl_cons, (ih _).1, (ih _).2, hlo, hhi]
    exact ⟨rfl, rfl⟩

/-- The first vertex is counted twice, which changes nothing. -/
theorem bounds?_eq {m : Mesh K} {first : Vec K} {rest : List (Vec K)} (h : m.vertices.toList = first :: rest) :
    m.bounds? = some (rest.foldl Bounds.widen ⟨first, first⟩) := by
  have htwice : Bounds.widen ⟨first, first⟩ first = ⟨first, first⟩ := by
    simp [Bounds.widen, Vec.lesser, Vec.greater, Scalar.lesser, Scalar.greater]
  rw [bounds?, ← Array.getElem?_toList, h, List.getElem?_cons_zero, Option.map_some, ← Array.foldl_toList, h,
    List.foldl_cons, htwice]

/-- The bounds of a mesh with vertices are the extremes, on each axis, of the coordinates since the last undefined
one. -/
theorem exists_bounds {m : Mesh Float} (h : m.vertices ≠ #[]) :
    ∃ box, m.bounds? = some box ∧ ∀ axis,
      Leads (· ≤ ·) (sinceUndefined (m.coordinates axis)) (box.lo.along axis) ∧
      Leads (· ≥ ·) (sinceUndefined (m.coordinates axis)) (box.hi.along axis) := by
  obtain ⟨first, rest, hvertices⟩ := List.exists_cons_of_ne_nil (mt Array.toList_eq_nil_iff.mp h)
  refine ⟨_, bounds?_eq hvertices, fun axis => ?_⟩
  obtain ⟨hlo, hhi⟩ := foldl_widen_along ⟨first, first⟩ rest axis
  rw [coordinates, hvertices, List.map_cons, hlo, hhi]
  exact ⟨leads_foldl compares_double _ _, leads_foldl compares_double.swap _ _⟩

/-! ## The box of the vertices -/

theorem spans_of_leads {box : Bounds Float} {axis : Axis} (hlo : Leads (· ≤ ·) cs (box.lo.along axis))
    (hhi : Leads (· ≥ ·) cs (box.hi.along axis)) (hcs : cs ≠ []) : box.Spans axis cs := by
  obtain ⟨hmem, hleast⟩ := hlo.resolve_left fun hnone => hcs hnone.1
  obtain ⟨hmem', hgreatest⟩ := hhi.resolve_left fun hnone => hcs hnone.1
  exact ⟨⟨hmem, hleast⟩, ⟨hmem', hgreatest⟩⟩

/-- The bounds of defined coordinates span all of them. -/
theorem exists_span {m : Mesh Float} (h : m.vertices ≠ #[]) :
    ∃ box, m.bounds? = some box ∧
      ∀ axis, (∀ c ∈ m.coordinates axis, c.isNaN = false) → box.Spans axis (m.coordinates axis) := by
  obtain ⟨box, hbox, hleads⟩ := exists_bounds h
  refine ⟨box, hbox, fun axis hdefined => ?_⟩
  obtain ⟨hlo, hhi⟩ := hleads axis
  rw [sinceUndefined_of_defined hdefined] at hlo hhi
  exact spans_of_leads hlo hhi (by simpa [coordinates] using h)

/-- Boxes that span the same defined numbers on an axis are equal there. -/
theorem beq_of_spans (hdefined : ∀ c ∈ cs, c.isNaN = false) {box box' : Bounds Float} {axis : Axis}
    (h : box.Spans axis cs) (h' : box'.Spans axis cs) :
    (box'.lo.along axis == box.lo.along axis) = true ∧ (box'.hi.along axis == box.hi.along axis) = true := by
  obtain ⟨⟨hlo, hleast⟩, ⟨hhi, hgreatest⟩⟩ := h
  obtain ⟨⟨hlo', hleast'⟩, ⟨hhi', hgreatest'⟩⟩ := h'
  constructor
  · exact Double.beq_of_le_of_le (hdefined _ hlo') (hdefined _ hlo) (hleast' hlo) (hleast hlo')
  · exact Double.beq_of_le_of_le (hdefined _ hhi') (hdefined _ hhi) (hgreatest hhi') (hgreatest' hhi)

/-- **The bounds since the last undefined coordinate.** A mesh with vertices has bounds, and on each axis for itself:
when the coordinate of the last vertex is undefined, so are both bounds; otherwise they are the least and the greatest
of the coordinates behind the last undefined one. When every coordinate on the axis is defined, they are the least and
the greatest of all, and equal to those of every mesh with the same vertices in another order. -/
theorem bounds_span {m : Mesh Float} (h : m.vertices ≠ #[]) :
    ∃ box last, m.bounds? = some box ∧ m.vertices.back? = some last ∧ ∀ axis,
      (if (last.along axis).isNaN then (box.lo.along axis).isNaN = true ∧ (box.hi.along axis).isNaN = true
        else box.Spans axis (sinceUndefined (m.coordinates axis))) ∧
      ((∀ c ∈ m.coordinates axis, c.isNaN = false) →
        box.Spans axis (m.coordinates axis) ∧
        ∀ m' : Mesh Float, m'.vertices.Perm m.vertices → ∃ box', m'.bounds? = some box' ∧
          (box'.lo.along axis == box.lo.along axis) = true ∧ (box'.hi.along axis == box.hi.along axis) = true) := by
  obtain ⟨box, hbox, hleads⟩ := exists_bounds h
  obtain ⟨before, last, hvertices⟩ := Array.exists_push_of_ne_empty h
  have hcoordinates : ∀ axis, m.coordinates axis =
      (before.toList.map fun v => v.along axis) ++ [last.along axis] := fun axis => by
    rw [coordinates, hvertices, Array.toList_push, List.map_append, List.map_singleton]
  refine ⟨box, last, hbox, by rw [hvertices, Array.back?_push], fun axis => ⟨?_, fun hdefined => ?_⟩⟩
  · obtain ⟨hlo, hhi⟩ := hleads axis
    split
    · rename_i hlast
      rw [hcoordinates, sinceUndefined_concat_undefined hlast] at hlo hhi
      exact ⟨hlo.isNaN, hhi.isNaN⟩
    · rename_i hlast
      refine spans_of_leads hlo hhi ?_
      rw [hcoordinates, sinceUndefined_concat_defined (Bool.not_eq_true _ ▸ hlast)]
      exact List.concat_ne_nil _ _
  · obtain ⟨box₁, hbox₁, hspan⟩ := exists_span h
    obtain rfl := Option.some.inj (hbox.symm.trans hbox₁)
    refine ⟨hspan axis hdefined, fun m' hperm => ?_⟩
    have hsame : ∀ c, c ∈ m'.coordinates axis ↔ c ∈ m.coordinates axis := fun c => (hperm.toList.map _).mem_iff
    have hvertices' : m'.vertices ≠ #[] := fun hempty => by
      have hsize := hperm.size_eq
      simp [hempty, hvertices] at hsize
    obtain ⟨box', hbox', hspan'⟩ := exists_span hvertices'
    have hspan' := hspan' axis fun c hc => hdefined c ((hsame c).mp hc)
    simp only [Bounds.Spans, hsame] at hspan'
    exact ⟨box', hbox', beq_of_spans hdefined (hspan axis hdefined) hspan'⟩

/-- An undefined coordinate between others on the first axis, none on the second, and one at the end on the third. -/
theorem bounds_span_forgets :
    let m : Mesh Float := ⟨#[⟨9, 0, 2⟩, ⟨0 / 0, -4, 1⟩, ⟨3, 1, 0⟩, ⟨2, 5, 0 / 0⟩], #[]⟩
    m.vertices ≠ #[] ∧ ∃ box, m.bounds? = some box ∧ box.Spans .x [3, 2] ∧ box.Spans .y [0, -4, 1, 5] ∧
      (box.lo.along .z).isNaN = true := by
  intro m
  have hvertices : m.vertices ≠ #[] := nofun
  obtain ⟨box, last, hbox, hlast, haxis⟩ := bounds_span hvertices
  obtain rfl : ⟨2, 5, 0 / 0⟩ = last := Option.some.inj hlast
  refine ⟨hvertices, box, hbox, ?_, ?_, ?_⟩
  · have hx := (haxis .x).1
    rwa [if_neg (by decide +kernel)] at hx
  · exact ((haxis .y).2 (by decide +kernel)).1
  · have hz := (haxis .z).1
    rw [if_pos (by decide +kernel)] at hz
    exact hz.1

end Mesh

end Foliage
