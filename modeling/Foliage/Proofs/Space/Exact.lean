import Foliage.Space.Rotation
import Mathlib.Analysis.SpecialFunctions.Trigonometric.Basic
import Mathlib.Tactic.LinearCombination

/-!
# Exact geometry

The geometry read over exact arithmetic: the real numbers are an instance of `Scalar`, with their own square root, sine
and cosine and with no number that is infinite or undefined. Over them

* a vector has a direction exactly when it is not zero (`normalize?_eq_none_iff`), and a vector of length one is its own
  direction (`normalize?_of_unit`);
* a rotation keeps inner and outer products (`dot_rotateBy`, `cross_rotateBy`), and rotations about one axis add up
  (`rotateBy_rotateBy`);
* the shortest rotation from one direction to another carries the one onto the other (`rotateBy_arc`).
-/

namespace Foliage

/-- Exact arithmetic. -/
noncomputable instance Scalar.exact : Scalar ℝ where
  decLt := Classical.decRel _
  decLe := Classical.decRel _
  ofNat := Nat.cast
  sqrt := Real.sqrt
  sin := Real.sin
  cos := Real.cos
  isFinite _ := true
  pi := Real.pi
  powTwo n := 2 ^ n

/-- A quotient of exact numbers is the one of the field, in the form that its lemmas speak of. -/
noncomputable instance Scalar.exactDiv : Div ℝ := DivInvMonoid.toDiv

attribute [ext] Vec

namespace Vec

/-! ## Coordinates -/

section Coordinates

variable {K : Type} [Scalar K] (a b : Vec K) (s : K)

@[simp] theorem add_x : (a + b).x = a.x + b.x := rfl
@[simp] theorem add_y : (a + b).y = a.y + b.y := rfl
@[simp] theorem add_z : (a + b).z = a.z + b.z := rfl

@[simp] theorem sub_x : (a - b).x = a.x - b.x := rfl
@[simp] theorem sub_y : (a - b).y = a.y - b.y := rfl
@[simp] theorem sub_z : (a - b).z = a.z - b.z := rfl

@[simp] theorem neg_x : (-a).x = -a.x := rfl
@[simp] theorem neg_y : (-a).y = -a.y := rfl
@[simp] theorem neg_z : (-a).z = -a.z := rfl

@[simp] theorem mul_x : (a * s).x = a.x * s := rfl
@[simp] theorem mul_y : (a * s).y = a.y * s := rfl
@[simp] theorem mul_z : (a * s).z = a.z * s := rfl

@[simp] theorem zero_x : (0 : Vec K).x = 0 := rfl
@[simp] theorem zero_y : (0 : Vec K).y = 0 := rfl
@[simp] theorem zero_z : (0 : Vec K).z = 0 := rfl

@[simp] theorem cross_x : (a.cross b).x = a.y * b.z - b.y * a.z := rfl
@[simp] theorem cross_y : (a.cross b).y = a.z * b.x - b.z * a.x := rfl
@[simp] theorem cross_z : (a.cross b).z = a.x * b.y - b.x * a.y := rfl

end Coordinates

/-! ## Products -/

variable {a b c : Vec ℝ}

theorem dot_comm (a b : Vec ℝ) : a.dot b = b.dot a := by
  simp only [dot]
  ring

theorem add_dot (a b c : Vec ℝ) : (a + b).dot c = a.dot c + b.dot c := by
  simp only [dot, add_x, add_y, add_z]
  ring

theorem dot_add (a b c : Vec ℝ) : a.dot (b + c) = a.dot b + a.dot c := by
  rw [dot_comm, add_dot, dot_comm b, dot_comm c]

theorem mul_dot (a b : Vec ℝ) (s : ℝ) : (a * s).dot b = a.dot b * s := by
  simp only [dot, mul_x, mul_y, mul_z]
  ring

theorem dot_mul (a b : Vec ℝ) (s : ℝ) : a.dot (b * s) = a.dot b * s := by
  rw [dot_comm, mul_dot, dot_comm b]

theorem dot_self_nonneg (a : Vec ℝ) : 0 ≤ a.dot a :=
  add_nonneg (add_nonneg (mul_self_nonneg _) (mul_self_nonneg _)) (mul_self_nonneg _)

theorem dot_self_eq_zero_iff : a.dot a = 0 ↔ a = 0 := by
  constructor
  · intro h
    have hxy : 0 ≤ a.x * a.x + a.y * a.y := add_nonneg (mul_self_nonneg _) (mul_self_nonneg _)
    obtain ⟨hxy, hz⟩ := (add_eq_zero_iff_of_nonneg hxy (mul_self_nonneg _)).mp h
    obtain ⟨hx, hy⟩ := (add_eq_zero_iff_of_nonneg (mul_self_nonneg _) (mul_self_nonneg _)).mp hxy
    exact Vec.ext (mul_self_eq_zero.mp hx) (mul_self_eq_zero.mp hy) (mul_self_eq_zero.mp hz)
  · rintro rfl
    simp [dot]

/-- The outer product is at right angles to its first factor. -/
theorem dot_cross_self_left (a b : Vec ℝ) : a.dot (a.cross b) = 0 := by
  simp only [dot, cross_x, cross_y, cross_z]
  ring

theorem dot_cross_self_right (a b : Vec ℝ) : b.dot (a.cross b) = 0 := by
  simp only [dot, cross_x, cross_y, cross_z]
  ring

/-- The inner product of two outer products. -/
theorem dot_cross_cross (a b c d : Vec ℝ) :
    (a.cross c).dot (b.cross d) = a.dot b * c.dot d - b.dot c * a.dot d := by
  simp only [dot, cross_x, cross_y, cross_z]
  ring

theorem neg_dot_neg (a b : Vec ℝ) : (-a).dot (-b) = a.dot b := by
  simp only [dot, neg_x, neg_y, neg_z]
  ring

theorem neg_cross_neg (a b : Vec ℝ) : (-a).cross (-b) = a.cross b := by
  ext <;> simp only [cross_x, cross_y, cross_z, neg_x, neg_y, neg_z] <;> ring

theorem mul_cross (a b : Vec ℝ) (s : ℝ) : (a * s).cross b = a.cross b * s := by
  ext <;> simp only [cross_x, cross_y, cross_z, mul_x, mul_y, mul_z] <;> ring

/-- The outer product with the outer product. -/
theorem cross_cross (a b : Vec ℝ) : (a.cross b).cross a = b * a.dot a - a * a.dot b := by
  ext <;> simp only [dot, cross_x, cross_y, cross_z, sub_x, sub_y, sub_z, mul_x, mul_y, mul_z] <;> ring

/-! ## Directions -/

theorem length_mul_self (a : Vec ℝ) : a.length * a.length = a.dot a := Real.mul_self_sqrt (dot_self_nonneg a)

theorem length_nonneg (a : Vec ℝ) : 0 ≤ a.length := Real.sqrt_nonneg _

theorem length_eq_one_iff : a.length = 1 ↔ a.dot a = 1 := Real.sqrt_eq_one

theorem length_eq_zero_iff : a.length = 0 ↔ a = 0 :=
  (Real.sqrt_eq_zero (dot_self_nonneg a)).trans dot_self_eq_zero_iff

theorem length_mul (a : Vec ℝ) (s : ℝ) : (a * s).length = |s| * a.length := by
  have hdot : (a * s).dot (a * s) = s * s * a.dot a := by
    rw [mul_dot, dot_mul]
    ring
  show √((a * s).dot (a * s)) = |s| * √(a.dot a)
  rw [hdot, Real.sqrt_mul (mul_self_nonneg s), Real.sqrt_mul_self_eq_abs]

theorem dist_comm (a b : Vec ℝ) : a.dist b = b.dist a := by
  have hback : a - b = (b - a) * (-1 : ℝ) := by
    ext <;> simp
  rw [dist, hback, length_mul, abs_neg, abs_one, one_mul, dist]

/-- A point on the line from `b` through `a` is away from `b` by a multiple. -/
theorem dist_add_mul (a b : Vec ℝ) (s : ℝ) : (b + (a - b) * s).dist b = |s| * a.dist b := by
  have hsub : b + (a - b) * s - b = (a - b) * s := by
    ext <;> simp
  rw [dist, hsub, length_mul, dist]

/-- A vector of positive length has a direction, and no other. -/
theorem normalize?_eq_some_iff {u : Vec ℝ} : a.normalize? = some u ↔ 0 < a.length ∧ u = a * a.length⁻¹ := by
  unfold normalize?
  simp [Scalar.isFinite, eq_comm]

/-- Zero alone has no direction. -/
theorem normalize?_eq_none_iff : a.normalize? = none ↔ a = 0 := by
  constructor
  · intro h
    by_contra hne
    have hpos : 0 < a.length := (length_nonneg a).lt_of_ne' (mt length_eq_zero_iff.mp hne)
    rw [normalize?_eq_some_iff.mpr ⟨hpos, rfl⟩] at h
    cases h
  · rintro rfl
    refine Option.eq_none_iff_forall_ne_some.mpr fun u hu => ?_
    have hpos := (normalize?_eq_some_iff.mp hu).1
    rw [length_eq_zero_iff.mpr rfl] at hpos
    exact lt_irrefl 0 hpos

/-- The direction of a vector has length one, and the vector is a multiple of it. -/
theorem of_normalize? {u : Vec ℝ} (h : a.normalize? = some u) : u.dot u = 1 ∧ a = u * a.length ∧ 0 < a.length := by
  obtain ⟨hpos, rfl⟩ := normalize?_eq_some_iff.mp h
  refine ⟨?_, ?_, hpos⟩
  · rw [mul_dot, dot_mul, ← length_mul_self]
    field_simp
  · ext <;> simp only [mul_x, mul_y, mul_z] <;> field_simp

theorem normalize?_of_unit (h : a.dot a = 1) : a.normalize? = some a := by
  apply normalize?_eq_some_iff.mpr
  rw [length_eq_one_iff.mpr h]
  refine ⟨one_pos, ?_⟩
  ext <;> simp

theorem normalizeOrZero_of_unit (h : a.dot a = 1) : a.normalizeOrZero = a := by
  rw [normalizeOrZero, normalize?_of_unit h, Option.getD_some]

/-! ## Rotations -/

section Rotation

variable {axis : Vec ℝ} {sin cos : ℝ}

/-- A rotation leaves its axis as it is. -/
theorem rotateBy_axis (haxis : axis.dot axis = 1) : axis.rotateBy axis sin cos = axis := by
  simp only [rotateBy, haxis]
  ext <;> simp only [add_x, add_y, add_z, mul_x, mul_y, mul_z, cross_x, cross_y, cross_z] <;> ring

/-- Rotations about one axis add up. -/
theorem rotateBy_rotateBy (haxis : axis.dot axis = 1) (a : Vec ℝ) (sin cos sin' cos' : ℝ) :
    (a.rotateBy axis sin cos).rotateBy axis sin' cos' =
      a.rotateBy axis (sin * cos' + cos * sin') (cos * cos' - sin * sin') := by
  have hdot : axis.dot (a.rotateBy axis sin cos) = axis.dot a := by
    rw [rotateBy, dot_add, dot_add, dot_mul, dot_mul, dot_mul, dot_mul, haxis, dot_cross_self_left]
    ring
  have hcross : axis.cross (a.rotateBy axis sin cos) = axis.cross a * cos + (axis * axis.dot a - a) * sin := by
    simp only [rotateBy, dot] at haxis ⊢
    ext <;> simp only [add_x, add_y, add_z, sub_x, sub_y, sub_z, mul_x, mul_y, mul_z, cross_x, cross_y, cross_z]
    · linear_combination (-a.x * sin) * haxis
    · linear_combination (-a.y * sin) * haxis
    · linear_combination (-a.z * sin) * haxis
  rw [rotateBy, hdot, hcross, rotateBy, rotateBy]
  ext <;> simp only [add_x, add_y, add_z, sub_x, sub_y, sub_z, mul_x, mul_y, mul_z] <;> ring

/-- A rotation back undoes a rotation. -/
theorem rotate_neg (haxis : axis.dot axis = 1) (a : Vec ℝ) (angle : ℝ) :
    (a.rotate axis angle).rotate axis (-angle) = a := by
  have hsin : Real.sin angle * Real.cos (-angle) + Real.cos angle * Real.sin (-angle) = 0 := by
    rw [← Real.sin_add, add_neg_cancel, Real.sin_zero]
  have hcos : Real.cos angle * Real.cos (-angle) - Real.sin angle * Real.sin (-angle) = 1 := by
    rw [← Real.cos_add, add_neg_cancel, Real.cos_zero]
  show (a.rotateBy axis (Real.sin angle) (Real.cos angle)).rotateBy axis (Real.sin (-angle)) (Real.cos (-angle)) = a
  rw [rotateBy_rotateBy haxis, hsin, hcos, rotateBy]
  ext <;> simp

/-- A rotation keeps inner products. -/
theorem dot_rotateBy (haxis : axis.dot axis = 1) (hangle : sin * sin + cos * cos = 1) (a b : Vec ℝ) :
    (a.rotateBy axis sin cos).dot (b.rotateBy axis sin cos) = a.dot b := by
  have hcross : (axis.cross a).dot (axis.cross b) = axis.dot axis * a.dot b - axis.dot a * axis.dot b :=
    dot_cross_cross axis axis a b
  have hcos : a.dot (axis.cross b) = -(axis.cross a).dot b := by
    simp only [dot, cross_x, cross_y, cross_z]
    ring
  simp only [rotateBy, add_dot, dot_add, mul_dot, dot_mul, hcross, hcos, haxis, dot_cross_self_left,
    dot_comm _ axis]
  linear_combination (a.dot b - axis.dot a * axis.dot b) * hangle

/-- A rotation keeps outer products. -/
theorem cross_rotateBy (haxis : axis.dot axis = 1) (hangle : sin * sin + cos * cos = 1) (a b : Vec ℝ) :
    (a.rotateBy axis sin cos).cross (b.rotateBy axis sin cos) = (a.cross b).rotateBy axis sin cos := by
  obtain ⟨u, v, w⟩ := axis
  simp only [rotateBy, dot] at haxis ⊢
  ext <;> simp only [add_x, add_y, add_z, mul_x, mul_y, mul_z, cross_x, cross_y, cross_z]
  · linear_combination (cos * (1 - cos) * (a.y * b.z - b.y * a.z) +
      sin * (1 - cos) * (v * (a.x * b.y - b.x * a.y) - (a.z * b.x - b.z * a.x) * w)) * haxis +
      u * (u * (a.y * b.z - b.y * a.z) + v * (a.z * b.x - b.z * a.x) + w * (a.x * b.y - b.x * a.y)) * hangle
  · linear_combination (cos * (1 - cos) * (a.z * b.x - b.z * a.x) +
      sin * (1 - cos) * (w * (a.y * b.z - b.y * a.z) - (a.x * b.y - b.x * a.y) * u)) * haxis +
      v * (u * (a.y * b.z - b.y * a.z) + v * (a.z * b.x - b.z * a.x) + w * (a.x * b.y - b.x * a.y)) * hangle
  · linear_combination (cos * (1 - cos) * (a.x * b.y - b.x * a.y) +
      sin * (1 - cos) * (u * (a.z * b.x - b.z * a.x) - (a.y * b.z - b.y * a.z) * v)) * haxis +
      w * (u * (a.y * b.z - b.y * a.z) + v * (a.z * b.x - b.z * a.x) + w * (a.x * b.y - b.x * a.y)) * hangle

end Rotation

/-! ## From one direction to another -/

section Arc

/-- The outer and the inner product of two directions are the sine and the cosine of their angle. -/
theorem arc_angle (ha : a.dot a = 1) (hb : b.dot b = 1) :
    (a.cross b).length * (a.cross b).length + a.dot b * a.dot b = 1 := by
  rw [length_mul_self, dot_cross_cross, ha, hb]
  ring

theorem clamp_dot (ha : a.dot a = 1) (hb : b.dot b = 1) : Scalar.clamp (a.dot b) (-1) 1 = a.dot b := by
  have hle : a.dot b * a.dot b ≤ 1 := by linarith [arc_angle ha hb, mul_self_nonneg (a.cross b).length]
  obtain ⟨hlo, hhi⟩ := abs_le.mp (abs_le_one_iff_mul_self_le_one.mpr hle)
  rw [Scalar.clamp, if_neg (not_lt.mpr hlo), if_neg (not_lt.mpr hhi)]

/-- The rotation about the outer product of two directions by their angle carries the one onto the other. -/
theorem rotateBy_arc {axis : Vec ℝ} (ha : a.dot a = 1) (haxis : (a.cross b).normalize? = some axis) :
    a.rotateBy axis (a.cross b).length (a.dot b) = b := by
  obtain ⟨-, hcross, hpos⟩ := of_normalize? haxis
  have hright : axis.dot a = 0 := by
    have h : axis.dot a * (a.cross b).length = 0 := by
      rw [← mul_dot, ← hcross, dot_comm, dot_cross_self_left]
    exact (mul_eq_zero.mp h).resolve_right hpos.ne'
  have hback : axis.cross a * (a.cross b).length = b - a * a.dot b := by
    rw [← mul_cross, ← hcross, cross_cross, ha]
    ext <;> simp
  rw [rotateBy, hback, hright]
  ext <;> simp

end Arc

end Vec

end Foliage
