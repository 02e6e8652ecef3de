import Foliage.Proofs.Skeleton.Growth
import Foliage.Proofs.Space.Exact
import Mathlib.Algebra.BigOperators.Group.Finset.Basic
import Mathlib.Algebra.BigOperators.Intervals

/-!
# Skeletons along curves

A skeleton that is sampled from a curve is a chain: each node has the next one for its only child, and the last one has
none (`Skeleton.IsChain`). This holds over any scalars, since it does not depend on where the points are.

Over exact arithmetic the points lie on the curve in its Bernstein form (`bernstein`): the sum of the control points,
each with its weight from the binomial distribution. Repeated interpolation takes one degree away at a time, and the
weights of one degree come from those of the degree below by Pascal's rule (`bernsteinWeight_succ_succ`), so that the
two agree by induction on the degree (`casteljau_eq_bernstein`). The induction is done for one coordinate, as nothing
about it matters but that it respects sums and multiples (`Vec.IsLinear`).
-/

namespace Foliage

open Skeleton

/-! ## Chains -/

section Chain

variable {K : Type}

/-- A chain through the given points. -/
def Skeleton.IsChain (s : Skeleton K) (points : List (Vec K)) : Prop :=
  ∀ id, s.node? id = points[id]?.map fun p => ⟨p, if id + 1 < points.length then [id + 1] else []⟩

variable {s : Skeleton K} {points : List (Vec K)}

theorem isChain_single (p : Vec K) : (single p).IsChain [p] := by
  intro id
  rw [node?_single]
  cases id <;> simp

theorem Skeleton.IsChain.size (h : s.IsChain points) : s.size = points.length := by
  have hnode : ∀ id, id < s.size ↔ id < points.length := by
    intro id
    have hid := congrArg Option.isSome (h id)
    rw [Option.isSome_map, Bool.eq_iff_iff] at hid
    simpa [Skeleton.node?, Skeleton.size] using hid
  have h₁ := (hnode points.length).not.mpr (Nat.lt_irrefl _)
  have h₂ := (hnode s.size).not.mp (Nat.lt_irrefl _)
  omega

/-- A node below the last one makes the chain longer. -/
theorem Skeleton.IsChain.link {tip : Nat} (h : s.IsChain points) (htip : tip + 1 = points.length) (p : Vec K) :
    (s.link tip p).IsChain (points ++ [p]) := by
  intro id
  have hsize := h.size
  rcases Nat.lt_trichotomy id points.length with hid | rfl | hid
  · rw [node?_link_of_lt (hsize ▸ hid), h id, List.getElem?_append_left hid, List.getElem?_eq_getElem hid, hsize]
    by_cases hlast : tip = id
    · simp [← hlast, htip]
    · have hinner : id + 1 < points.length := by omega
      simp [hlast, hinner, Nat.lt_succ_of_lt hinner]
  · have hnew : (s.link tip p).node? s.size = some ⟨p, []⟩ := node?_link_size (by omega)
    rw [← hsize, hnew, hsize]
    simp
  · have hnone : (s.link tip p).node? id = none := by
      refine Array.getElem?_eq_none ?_
      show (s.link tip p).size ≤ id
      rw [size_link]
      omega
    rw [hnone, List.getElem?_eq_none (by simpa using hid)]
    rfl

variable [Scalar K]

theorem isChain_extendChain {segments count i tip : Nat} {first : Vec K} {rest : List (Vec K)} (h : s.IsChain points)
    (htip : tip + 1 = points.length) :
    (extendChain segments first rest count i tip s).IsChain
      (points ++ (List.range' i count).map fun j => casteljau (Scalar.ofNat j / Scalar.ofNat segments) first rest) := by
  induction count generalizing i tip s points with
  | zero => simpa [extendChain] using h
  | succ count ih =>
    have hlonger := h.link htip (casteljau (Scalar.ofNat i / Scalar.ofNat segments) first rest)
    have htip' : s.size + 1 = (points ++ [casteljau (Scalar.ofNat i / Scalar.ofNat segments) first rest]).length := by
      simp [h.size]
    have hrest := ih (i := i + 1) hlonger htip'
    rw [List.append_assoc] at hrest
    exact hrest

/-- The points of a skeleton that is sampled from a curve: the first control point, then those at the parameters. -/
theorem isChain_ofCurve (first : Vec K) (rest : List (Vec K)) (segments : Nat) :
    ∃ s, ofCurve? (first :: rest) segments = some s ∧
      s.IsChain (first :: (List.range' 1 (max segments 1)).map fun j =>
        casteljau (Scalar.ofNat j / Scalar.ofNat (max segments 1)) first rest) :=
  ⟨_, rfl, isChain_extendChain (isChain_single first) rfl⟩

end Chain

/-! ## The Bernstein form -/

/-- The weight of the control point at `j` of a curve of degree `m`. -/
noncomputable def bernsteinWeight (m j : Nat) (t : ℝ) : ℝ := m.choose j * t ^ j * (1 - t) ^ (m - j)

/-- The Bernstein form of a curve: the sum of its control points, each with its weight. -/
noncomputable def bernstein (control : List (Vec ℝ)) (t : ℝ) : Vec ℝ :=
  ((List.range control.length).map fun j => control.getD j 0 * bernsteinWeight (control.length - 1) j t).sum

/-- A function to scalars that respects sums and multiples, as each coordinate does. -/
structure Vec.IsLinear (c : Vec ℝ → ℝ) : Prop where
  zero : c 0 = 0
  add : ∀ a b, c (a + b) = c a + c b
  mul : ∀ a s, c (a * s) = c a * s

theorem bernsteinWeight_of_lt {m j : Nat} (h : m < j) (t : ℝ) : bernsteinWeight m j t = 0 := by
  simp [bernsteinWeight, Nat.choose_eq_zero_of_lt h]

theorem bernsteinWeight_succ_zero (m : Nat) (t : ℝ) :
    bernsteinWeight (m + 1) 0 t = (1 - t) * bernsteinWeight m 0 t := by
  simp [bernsteinWeight, pow_succ']

/-- Pascal's rule. -/
theorem bernsteinWeight_succ_succ {m j : Nat} (h : j ≤ m) (t : ℝ) :
    bernsteinWeight (m + 1) (j + 1) t = t * bernsteinWeight m j t + (1 - t) * bernsteinWeight m (j + 1) t := by
  rcases Nat.lt_or_eq_of_le h with hlt | rfl
  · have hpow : (1 - t) ^ (m - j) = (1 - t) * (1 - t) ^ (m - (j + 1)) := by
      rw [← pow_succ']
      congr 1
      omega
    simp only [bernsteinWeight, Nat.choose_succ_succ, Nat.cast_add, Nat.add_sub_add_right, hpow]
    ring
  · rw [bernsteinWeight_of_lt (Nat.lt_succ_self j)]
    simp only [bernsteinWeight, Nat.choose_self, Nat.sub_self]
    ring

/-- A sum of one degree is the sum of the degree below over what lies between neighbours. -/
theorem sum_bernsteinWeight_succ (m : Nat) (t : ℝ) (p : Nat → ℝ) :
    ∑ j ∈ Finset.range (m + 2), bernsteinWeight (m + 1) j t * p j =
      ∑ j ∈ Finset.range (m + 1), bernsteinWeight m j t * (p j * (1 - t) + p (j + 1) * t) := by
  have hpascal : ∀ j ∈ Finset.range (m + 1), bernsteinWeight (m + 1) (j + 1) t * p (j + 1) =
      t * (bernsteinWeight m j t * p (j + 1)) + (1 - t) * (bernsteinWeight m (j + 1) t * p (j + 1)) := by
    intro j hj
    rw [bernsteinWeight_succ_succ (Nat.le_of_lt_succ (Finset.mem_range.mp hj))]
    ring
  -- the sum of degree `m` over the points may start at the second, and the weight behind its last one is zero
  have hshift : ∑ j ∈ Finset.range (m + 1), bernsteinWeight m (j + 1) t * p (j + 1) + bernsteinWeight m 0 t * p 0 =
      ∑ j ∈ Finset.range (m + 1), bernsteinWeight m j t * p j := by
    rw [← Finset.sum_range_succ' fun j => bernsteinWeight m j t * p j, Finset.sum_range_succ,
      bernsteinWeight_of_lt (Nat.lt_succ_self m), zero_mul, add_zero]
  calc ∑ j ∈ Finset.range (m + 2), bernsteinWeight (m + 1) j t * p j
      = ∑ j ∈ Finset.range (m + 1), bernsteinWeight (m + 1) (j + 1) t * p (j + 1) +
          bernsteinWeight (m + 1) 0 t * p 0 := Finset.sum_range_succ' _ _
    _ = t * ∑ j ∈ Finset.range (m + 1), bernsteinWeight m j t * p (j + 1) +
          (1 - t) * (∑ j ∈ Finset.range (m + 1), bernsteinWeight m (j + 1) t * p (j + 1) +
            bernsteinWeight m 0 t * p 0) := by
        rw [Finset.sum_congr rfl hpascal, Finset.sum_add_distrib, ← Finset.mul_sum, ← Finset.mul_sum,
          bernsteinWeight_succ_zero]
        ring
    _ = ∑ j ∈ Finset.range (m + 1), bernsteinWeight m j t * (p j * (1 - t) + p (j + 1) * t) := by
        rw [hshift, Finset.mul_sum, Finset.mul_sum, ← Finset.sum_add_distrib]
        exact Finset.sum_congr rfl fun j _ => by ring

/-- The control points of the degree below lie between neighbouring control points. -/
theorem getD_lerp {first second : Vec ℝ} {rest : List (Vec ℝ)} {t : ℝ} {j : Nat} (hj : j ≤ rest.length) :
    (first.lerp second t :: ((second :: rest).zip rest).map fun p => p.1.lerp p.2 t).getD j 0 =
      ((first :: second :: rest).getD j 0).lerp ((first :: second :: rest).getD (j + 1) 0) t := by
  cases j with
  | zero => rfl
  | succ j =>
    have hright : j < rest.length := hj
    have hleft : j < (second :: rest).length := Nat.lt_succ_of_lt hright
    simp [List.getD_eq_getElem?_getD, List.zip, List.getElem?_zipWith, List.getElem?_eq_getElem hleft,
      List.getElem?_eq_getElem hright]

namespace Vec.IsLinear

variable {c : Vec ℝ → ℝ}

theorem x : IsLinear Vec.x := ⟨rfl, fun _ _ => rfl, fun _ _ => rfl⟩

theorem y : IsLinear Vec.y := ⟨rfl, fun _ _ => rfl, fun _ _ => rfl⟩

theorem z : IsLinear Vec.z := ⟨rfl, fun _ _ => rfl, fun _ _ => rfl⟩

theorem lerp (hc : IsLinear c) (a b : Vec ℝ) (t : ℝ) : c (a.lerp b t) = c a * (1 - t) + c b * t := by
  rw [Vec.lerp, hc.add, hc.mul, hc.mul]

theorem sum (hc : IsLinear c) (vs : List (Vec ℝ)) : c vs.sum = (vs.map c).sum := by
  induction vs with
  | nil => exact hc.zero
  | cons v vs ih => rw [List.sum_cons, hc.add, ih, List.map_cons, List.sum_cons]

theorem bernstein (hc : IsLinear c) (first : Vec ℝ) (rest : List (Vec ℝ)) (t : ℝ) :
    c (Foliage.bernstein (first :: rest) t) =
      ∑ j ∈ Finset.range (rest.length + 1), bernsteinWeight rest.length j t * c ((first :: rest).getD j 0) := by
  have hterm : ∀ j, c ((first :: rest).getD j 0 * bernsteinWeight rest.length j t) =
      bernsteinWeight rest.length j t * c ((first :: rest).getD j 0) := by
    intro j
    rw [hc.mul, mul_comm]
  rw [Foliage.bernstein, hc.sum, List.map_map]
  exact congrArg List.sum (List.map_congr_left fun j _ => hterm j)

/-- Repeated interpolation in one coordinate. -/
theorem casteljau (hc : IsLinear c) (t : ℝ) (first : Vec ℝ) (rest : List (Vec ℝ)) :
    c (Foliage.casteljau t first rest) =
      ∑ j ∈ Finset.range (rest.length + 1), bernsteinWeight rest.length j t * c ((first :: rest).getD j 0) := by
  induction first, rest using Foliage.casteljau.induct t with
  | case1 first => simp [Foliage.casteljau, bernsteinWeight]
  | case2 first second rest ih =>
    have hlength : (((second :: rest).zip rest).map fun p => p.1.lerp p.2 t).length = rest.length := by simp
    rw [Foliage.casteljau, ih, hlength, List.length_cons, sum_bernsteinWeight_succ]
    refine Finset.sum_congr rfl fun j hj => congrArg _ ?_
    rw [getD_lerp (Nat.le_of_lt_succ (Finset.mem_range.mp hj)), hc.lerp]

end Vec.IsLinear

/-- **Repeated interpolation computes the Bernstein form.** -/
theorem casteljau_eq_bernstein (t : ℝ) (first : Vec ℝ) (rest : List (Vec ℝ)) :
    casteljau t first rest = bernstein (first :: rest) t := by
  have hcoordinate : ∀ {c : Vec ℝ → ℝ}, Vec.IsLinear c →
      c (casteljau t first rest) = c (bernstein (first :: rest) t) := by
    intro c hc
    rw [hc.casteljau, hc.bernstein]
  exact Vec.ext (hcoordinate .x) (hcoordinate .y) (hcoordinate .z)

/-! ## The ends of a curve -/

theorem casteljau_zero (first : Vec ℝ) (rest : List (Vec ℝ)) : casteljau 0 first rest = first := by
  have hlerp : ∀ a b : Vec ℝ, a.lerp b 0 = a := by
    intro a b
    ext <;> simp [Vec.lerp]
  induction first, rest using casteljau.induct (0 : ℝ) with
  | case1 first => rw [casteljau]
  | case2 first second rest ih => rw [casteljau, ih, hlerp]

theorem casteljau_one (first : Vec ℝ) (rest : List (Vec ℝ)) :
    casteljau 1 first rest = (first :: rest).getLast (List.cons_ne_nil _ _) := by
  have hlerp : ∀ a b : Vec ℝ, a.lerp b 1 = b := by
    intro a b
    ext <;> simp [Vec.lerp]
  induction first, rest using casteljau.induct (1 : ℝ) with
  | case1 first => rw [casteljau]; rfl
  | case2 first second rest ih =>
    have hrest : (((second :: rest).zip rest).map fun p => p.2) = rest := List.map_snd_zip (Nat.le_succ _)
    rw [casteljau, ih, List.getLast_cons_cons]
    simp only [hlerp, hrest]

/-! ## Skeletons along curves -/

/-- The nodes of a skeleton that is sampled from a curve. -/
theorem node?_ofCurve {K : Type} [Scalar K] (first : Vec K) (rest : List (Vec K)) (segments : Nat) :
    ∃ s, ofCurve? (first :: rest) segments = some s ∧ s.size = max segments 1 + 1 ∧
      ∀ i ≤ max segments 1, s.node? i = some
        ⟨if i = 0 then first else casteljau (Scalar.ofNat i / Scalar.ofNat (max segments 1)) first rest,
          if i < max segments 1 then [i + 1] else []⟩ := by
  obtain ⟨s, hs, hchain⟩ := isChain_ofCurve first rest segments
  refine ⟨s, hs, by simpa using hchain.size, fun i hi => ?_⟩
  rw [hchain i]
  cases i with
  | zero => simp
  | succ i =>
    have hi' : i < max segments 1 := hi
    simp [hi', Nat.add_comm]

/-- **Skeletons along curves.** From any control points and in any number of segments, of which there is at least one, a
skeleton is made with one more node than segments. Each node has the next one for its only child, and the last one has
none. Over exact arithmetic the node at `i` of `n` segments lies at the parameter `i / n` of the Bernstein form; so the
first node is at the first control point and the last node at the last one. -/
theorem ofCurve_bernstein (segments : Nat) :
    (∀ {K : Type} [Scalar K] (control : List (Vec K)), control ≠ [] →
      ∃ s, ofCurve? control segments = some s ∧ s.size = max segments 1 + 1 ∧
        ∀ i ≤ max segments 1, ∃ p, s.node? i = some ⟨p, if i < max segments 1 then [i + 1] else []⟩) ∧
    ∀ (control : List (Vec ℝ)) (h : control ≠ []),
      ∃ s, ofCurve? control segments = some s ∧
        (∀ i ≤ max segments 1, (s.node? i).map Node.point = some (bernstein control (i / (max segments 1 : Nat)))) ∧
        (s.node? 0).map Node.point = some (control.head h) ∧
        (s.node? (max segments 1)).map Node.point = some (control.getLast h) := by
  constructor
  · intro K _ control h
    obtain ⟨first, rest, rfl⟩ := List.exists_cons_of_ne_nil h
    obtain ⟨s, hs, hsize, hnode⟩ := node?_ofCurve first rest segments
    exact ⟨s, hs, hsize, fun i hi => ⟨_, hnode i hi⟩⟩
  · intro control h
    obtain ⟨first, rest, rfl⟩ := List.exists_cons_of_ne_nil h
    obtain ⟨s, hs, -, hnode⟩ := node?_ofCurve first rest segments
    have hpoint : ∀ i ≤ max segments 1, (s.node? i).map Node.point =
        some (casteljau ((i : ℝ) / (max segments 1 : Nat)) first rest) := by
      intro i hi
      rw [hnode i hi, Option.map_some]
      -- the root has been set apart, but it is where the formula would have it
      split
      · rename_i hroot
        rw [hroot, Nat.cast_zero, zero_div, casteljau_zero]
      · rfl
    refine ⟨s, hs, fun i hi => ?_, ?_, ?_⟩
    · rw [hpoint i hi, casteljau_eq_bernstein]
    · rw [hpoint 0 (Nat.zero_le _), Nat.cast_zero, zero_div, casteljau_zero]
      rfl
    · have hpos : ((max segments 1 : Nat) : ℝ) ≠ 0 := Nat.cast_ne_zero.mpr (by omega)
      rw [hpoint _ (Nat.le_refl _), div_self hpos, casteljau_one]

/-- Four segments of a parabola: its middle lies halfway between the middle of its ends and its second control point. -/
theorem ofCurve_bernstein_parabola :
    let control : List (Vec ℝ) := [0, ⟨0, 0, 4⟩, ⟨4, 0, 4⟩]
    control ≠ [] ∧ ∃ s, ofCurve? control 4 = some s ∧ s.size = 5 ∧ s.node? 2 = some ⟨⟨1, 0, 3⟩, [3]⟩ ∧
      s.node? 4 = some ⟨⟨4, 0, 4⟩, []⟩ := by
  intro control
  have hcontrol : control ≠ [] := List.cons_ne_nil _ _
  obtain ⟨s, hs, hsize, hnode⟩ := (ofCurve_bernstein 4).1 control hcontrol
  obtain ⟨s', hs', hpoint, -, hlast⟩ := (ofCurve_bernstein 4).2 control hcontrol
  obtain rfl := Option.some.inj (hs.symm.trans hs')
  have hmiddle : bernstein control ((2 : Nat) / (max 4 1 : Nat)) = ⟨1, 0, 3⟩ := by
    ext <;> norm_num [bernstein, bernsteinWeight, control, List.range_succ, Nat.choose_two_right]
  obtain ⟨p, hp⟩ := hnode 2 (by decide)
  obtain ⟨q, hq⟩ := hnode 4 (by decide)
  have hpoint := hpoint 2 (by decide)
  rw [hp, hmiddle] at hpoint
  rw [show max 4 1 = 4 from rfl, hq] at hlast
  obtain rfl := Option.some.inj hpoint
  obtain rfl := Option.some.inj hlast
  exact ⟨hcontrol, s, hs, hsize, hp, hq⟩

end Foliage
