import Foliage.Proofs.Double
import Foliage.Random

/-!
# Finite doubles

A product of doubles overflows only when its exponent is too large, and rounding raises the exponent of an exact
product by no more than the mantissa is too long for (`within_roundWithAccuracy`). So a bound on the exponents of two
factors bounds that of their product (`within_mul`), and whatever a bound holds for is finite. The uniform double below
`tau` is such a product (`isFinite_below_tau`).

Finite doubles have a difference that is defined (`isNaN_sub`), and of two doubles that are defined, one is below the
other unless they are ordered the other way round (`lt_of_not_le`).
-/

namespace Foliage.Double

open Float.Model (UnpackedFloat Format totalExponent)
open Float.Model.UnpackedFloat

/-! ## Bounded exponents -/

/-- Finite, with an exponent that is not above the bound. -/
def Within (bound : Int) : UnpackedFloat → Prop
  | .zero _ => True
  | .finite _ _ e _ => e ≤ bound
  | _ => False

instance (bound : Int) : DecidablePred (Within bound)
  | .zero _ => .isTrue trivial
  | .finite _ _ e _ => Int.decLe e bound
  | .infinity _ => .isFalse id
  | .notANumber => .isFalse id

theorem Within.mono {bound bound' : Int} {u : UnpackedFloat} (hu : Within bound u) (h : bound ≤ bound') :
    Within bound' u := by
  cases u with
  | zero s => trivial
  | finite s m e hm => exact Int.le_trans hu h
  | infinity s => exact hu
  | notANumber => exact hu

theorem Within.isFinite {bound : Int} {u : UnpackedFloat} (hu : Within bound u) : u.isFinite = true := by
  cases u with
  | zero s => rfl
  | finite s m e hm => rfl
  | infinity s => exact hu.elim
  | notANumber => exact hu.elim

theorem Within.isNaN {bound : Int} {u : UnpackedFloat} (hu : Within bound u) : u.isNaN = false := by
  cases u with
  | notANumber => exact hu.elim
  | _ => rfl

/-- The exponent at which a mantissa has 53 digits, or the least one. -/
theorem targetExponent_totalExponent (m : Nat) (e : Int) :
    Format.binary64.targetExponent (totalExponent m e) = max (m.log2 + 1 + e - 53) (-1074) :=
  rfl

/-- A mantissa is cut to 53 digits at most. -/
theorem mantissa_shiftToTargetExponent_lt (m : Nat) (e : Int) :
    (shiftToTargetExponent Format.binary64 m e .exact).1.mantissa < 2 ^ 53 := by
  unfold shiftToTargetExponent shiftToExponent
  simp only [mantissa_shiftRight, targetExponent_totalExponent]
  show m / 2 ^ _ < 2 ^ 53
  rw [Nat.div_lt_iff_lt_mul (Nat.two_pow_pos _), ← Nat.pow_add]
  exact Nat.lt_log2_self.trans_le (Nat.pow_le_pow_right (by decide) (by omega))

theorem exponent_shiftToTargetExponent (m : Nat) (e : Int) :
    (shiftToTargetExponent Format.binary64 m e .exact).2 = max e (max (m.log2 + 1 + e - 53) (-1074)) := by
  unfold shiftToTargetExponent shiftToExponent
  simp only [targetExponent_totalExponent]
  omega

theorem log2_le_of_lt {m k : Nat} (h : m < 2 ^ (k + 1)) : m.log2 ≤ k := by
  by_cases hm : m = 0
  · rw [hm]
    exact Nat.zero_le k
  · exact Nat.le_of_lt_succ ((Nat.log2_lt hm).mpr h)

/-- A mantissa as long as that of a product is cut by 53 digits at most, and by one more if it is rounded up to a power
of two. -/
theorem within_roundWithAccuracy {m : Nat} {e bound : Int} (hm : m < 2 ^ 106) (he : e + 54 ≤ bound)
    (hbound : -1073 ≤ bound) (s : Sign) : Within bound (roundWithAccuracy Format.binary64 s m e .exact) := by
  have hlog := log2_le_of_lt hm
  have hcut := mantissa_shiftToTargetExponent_lt m e
  have hfirst := exponent_shiftToTargetExponent m e
  unfold roundWithAccuracy
  generalize shiftToTargetExponent Format.binary64 m e .exact = first at hcut hfirst
  obtain ⟨em, e₁⟩ := first
  dsimp only at hcut hfirst ⊢
  have hrounded : em.roundedMantissa < 2 ^ 54 := by
    have := (roundedMantissa_bounds em).2
    omega
  have hlog' := log2_le_of_lt hrounded
  have hsecond := exponent_shiftToTargetExponent em.roundedMantissa e₁
  split
  · trivial
  · show _ ≤ bound
    omega

theorem within_mul {u v : UnpackedFloat} {b c bound : Int} (hu : Canonical u) (hv : Canonical v) (hb : Within b u)
    (hc : Within c v) (h : b + c + 54 ≤ bound) (hbound : -1073 ≤ bound) :
    Within bound (mul Format.binary64 u v) := by
  match u, v, hb, hc with
  | .zero _, .zero _, _, _ | .zero _, .finite .., _, _ | .finite .., .zero _, _, _ => trivial
  | .finite s m d hm, .finite t n e hn, hd, he =>
    have hd : d ≤ b := hd
    have he : e ≤ c := he
    have hmn : m * n < 2 ^ 53 * 2 ^ 53 := Nat.mul_lt_mul'' hu.1 hv.1
    rw [← Nat.pow_add] at hmn
    exact within_roundWithAccuracy hmn (by omega) hbound _

theorem within_ofNat {n : Nat} (hn : n < 2 ^ 53) : Within 54 (UnpackedFloat.ofNat Format.binary64 n) := by
  unfold UnpackedFloat.ofNat UnpackedFloat.ofInt UnpackedFloat.normalize
  split
  · rename_i h
    exact absurd (compare_lt_iff_lt.mp h) (by omega)
  · trivial
  · unfold UnpackedFloat.round
    simp only [decreaseExponent, targetExponent_totalExponent, Nat.shiftLeft_eq, Int.toNat_natCast]
    refine within_roundWithAccuracy ?_ (by omega) (by omega) _
    calc n * 2 ^ _ < 2 ^ 53 * 2 ^ 53 :=
          Nat.mul_lt_mul_of_lt_of_le hn (Nat.pow_le_pow_right (by decide) (by omega)) (Nat.two_pow_pos _)
      _ = 2 ^ 106 := by rw [← Nat.pow_add]

theorem within_unpack_least (s : Sign) (m : BitVec 52) :
    Within (-1074) (unpack Format.binary64 (packComponents Format.binary64 s (BitVec.ofNat 11 0) m)) := by
  rw [unpack_packComponents, if_neg (by decide), if_pos rfl]
  split
  · trivial
  · exact Int.le_refl _

/-- A number whose exponent is not too large stays finite as a double. -/
theorem within_unpack_pack_finite {m : Nat} {e : Int} (hm : 0 < m) (he : e ≤ 971) (s : Sign) :
    Within (max e (-1074)) (unpack Format.binary64 (pack Format.binary64 (.finite s m e hm))) := by
  have hbias : Format.binary64.exponentBias = 1023 := rfl
  unfold pack
  simp only [hbias]
  rw [if_neg (by omega)]
  split
  · generalize hx : Int.toNat _ = x
    rcases Nat.eq_zero_or_pos x with rfl | hpos
    · exact (within_unpack_least s _).mono (Int.le_max_right _ _)
    · rw [unpack_normal s hpos (by omega)]
      show (x : Int) - 1075 ≤ _
      omega
  · exact (within_unpack_least s _).mono (Int.le_max_right _ _)

theorem within_unpack_pack {u : UnpackedFloat} {bound : Int} (hu : Within bound u) (hleast : -1074 ≤ bound)
    (hfits : bound ≤ 971) : Within bound (unpack Format.binary64 (pack Format.binary64 u)) := by
  match u, hu with
  | .zero s, _ =>
    rw [show unpack Format.binary64 (pack Format.binary64 (.zero s)) = .zero s from unpack_packComponents s 0 0]
    trivial
  | .finite s m e hm, he =>
    exact (within_unpack_pack_finite hm (Int.le_trans he hfits) s).mono (Int.max_le.mpr ⟨he, hleast⟩)

/-! ## Draws -/

variable {a b : Float}

theorem unpack_mul (a b : Float) :
    (a * b).toModel.unpack =
      unpack Format.binary64 (pack Format.binary64 (mul Format.binary64 a.toModel.unpack b.toModel.unpack)) :=
  rfl

theorem within_product {c d bound : Int} (ha : Within c a.toModel.unpack) (hb : Within d b.toModel.unpack)
    (h : c + d + 54 ≤ bound) (hleast : -1073 ≤ bound) (hfits : bound ≤ 971) :
    Within bound (a * b).toModel.unpack := by
  rw [unpack_mul]
  exact within_unpack_pack
    (within_mul (canonical_double a).1 (canonical_double b).1 ha hb h hleast) (by omega) hfits

theorem within_double_ofNat {n : Nat} (hn : n < 2 ^ 53) : Within 56 (Float.ofNat n).toModel.unpack := by
  have hword : n.toUInt64.toNat = n := Nat.mod_eq_of_lt (by omega)
  have heq : Float.ofNat n = n.toUInt64.toFloat * Float.ofBits 0x3FF0000000000000 := dif_pos ⟨hn, by decide⟩
  have hone : Within (-52) (Float.ofBits 0x3FF0000000000000).toModel.unpack := by decide +kernel
  have hcount : Within 54 n.toUInt64.toFloat.toModel.unpack := by
    have hbound := within_ofNat (n := n.toUInt64.toNat) (by rwa [hword])
    exact within_unpack_pack hbound (by decide) (by decide)
  rw [heq]
  exact within_product hcount hone (by decide) (by decide) (by decide)

/-- **The draws of an angle are finite.** -/
theorem isFinite_below_tau {σ : Type} [RandomSource σ] (s : σ) :
    (Random.below (Scalar.tau : Float) s).1.isFinite = true := by
  let word := (RandomSource.next s).1
  have hword : (word >>> 12).toNat < 2 ^ 53 := by
    have hlt : word.toNat < 2 ^ 64 := word.toNat_lt
    rw [UInt64.toNat_shiftRight, Nat.shiftRight_eq_div_pow]
    show word.toNat / 2 ^ 12 < 2 ^ 53
    omega
  have hstep : Within (-104) (doublePowTwo (-52)).toModel.unpack := by decide +kernel
  have htau : Within (-50) (Scalar.tau : Float).toModel.unpack := by decide +kernel
  have hunit : Within 6 (Random.unitOfWord word : Float).toModel.unpack :=
    within_product (within_double_ofNat hword) hstep (by decide) (by decide) (by decide)
  have hdraw : Within 10 (Random.unitOfWord word * Scalar.tau : Float).toModel.unpack :=
    within_product hunit htau (by decide) (by decide) (by decide)
  exact hdraw.isFinite

/-! ## Differences -/

/-- What is defined stays so as a double, even if it is too large for one. -/
theorem isNaN_unpack_pack {u : UnpackedFloat} (hu : u.isNaN = false) :
    (unpack Format.binary64 (pack Format.binary64 u)).isNaN = false := by
  cases u with
  | zero s => exact congrArg isNaN (unpack_packComponents s 0 0)
  | infinity s => exact congrArg isNaN (unpack_packComponents s (-1#_) 0)
  | notANumber => exact hu
  | finite s m e hm =>
    by_cases he : e ≤ 971
    · exact (within_unpack_pack_finite hm he s).isNaN
    · rw [unpack_pack_infinity hm (Int.not_le.mp he)]
      rfl

theorem isNaN_round (s : Sign) (m : Nat) (e : Int) : (UnpackedFloat.round Format.binary64 s m e).isNaN = false := by
  unfold UnpackedFloat.round roundWithAccuracy
  dsimp only
  split <;> rfl

/-- Finite doubles have a difference. -/
theorem isNaN_sub (ha : a.isFinite = true) (hb : b.isFinite = true) : (a - b).isNaN = false := by
  have ha : a.toModel.unpack.isFinite = true := ha
  have hb : b.toModel.unpack.isFinite = true := hb
  refine isNaN_unpack_pack (u := sub Format.binary64 a.toModel.unpack b.toModel.unpack) ?_
  match a.toModel.unpack, b.toModel.unpack, ha, hb with
  | .zero s, .zero t, _, _ => cases s <;> cases t <;> rfl
  | .zero _, .finite .., _, _ | .finite .., .zero _, _, _ => rfl
  | .finite s m d hm, .finite t n e hn, _, _ =>
    show (UnpackedFloat.normalize Format.binary64 _ _ _).isNaN = false
    unfold UnpackedFloat.normalize
    split
    · exact isNaN_round _ _ _
    · rfl
    · exact isNaN_round _ _ _

theorem isNaN_neg (ha : a.isNaN = false) : (-a).isNaN = false := by
  have ha : a.toModel.unpack.isNaN = false := ha
  refine isNaN_unpack_pack (u := a.toModel.unpack.neg) ?_
  match a.toModel.unpack, ha with
  | .zero _, _ | .infinity _, _ | .finite .., _ => rfl

theorem isNaN_abs (ha : a.isNaN = false) : (Scalar.abs a).isNaN = false := by
  unfold Scalar.abs
  split
  · exact isNaN_neg ha
  · exact ha

/-! ## Order -/

/-- Numbers that are defined are compared, and the other way round with the opposite result. -/
theorem compare_swap {u v : UnpackedFloat} (hu : u.isNaN = false) (hv : v.isNaN = false) :
    ∃ o, u.compare v = some o ∧ v.compare u = some o.swap := by
  have hlex (m n : Nat) (d e : Int) :
      (compare e d).then (compare n m) = ((compare d e).then (compare m n)).swap := by
    rw [Ordering.swap_then, ← Std.OrientedCmp.eq_swap, ← Std.OrientedCmp.eq_swap]
  match u, v, hu, hv with
  | .infinity s, .infinity t, _, _ => cases s <;> cases t <;> exact ⟨_, rfl, rfl⟩
  | .infinity s, .zero _, _, _ | .infinity s, .finite .., _, _ => cases s <;> exact ⟨_, rfl, rfl⟩
  | .zero _, .infinity t, _, _ | .finite .., .infinity t, _, _ => cases t <;> exact ⟨_, rfl, rfl⟩
  | .zero _, .zero _, _, _ => exact ⟨_, rfl, rfl⟩
  | .finite s .., .zero _, _, _ => cases s <;> exact ⟨_, rfl, rfl⟩
  | .zero _, .finite t .., _, _ => cases t <;> exact ⟨_, rfl, rfl⟩
  | .finite .negative .., .finite .positive .., _, _ => exact ⟨_, rfl, rfl⟩
  | .finite .positive .., .finite .negative .., _, _ => exact ⟨_, rfl, rfl⟩
  | .finite .positive m d _, .finite .positive n e _, _, _ => exact ⟨_, rfl, congrArg some (hlex m n d e)⟩
  | .finite .negative m d _, .finite .negative n e _, _, _ =>
    exact ⟨_, rfl, congrArg (fun o : Ordering => some o.swap) (hlex m n d e)⟩

/-- Doubles that are defined are ordered one way or the other. -/
theorem lt_of_not_le (ha : a.isNaN = false) (hb : b.isNaN = false) (h : ¬ a ≤ b) : b < a := by
  obtain ⟨o, hab, hba⟩ := compare_swap ha hb
  rw [le_iff_compare] at h
  rw [lt_iff_compare, hba]
  cases o with
  | gt => rfl
  | lt => exact absurd ⟨_, hab, rfl⟩ h
  | eq => exact absurd ⟨_, hab, rfl⟩ h

end Foliage.Double
