import Mathlib

/-!
# Sums of doubles

Doubles that are neither below zero nor undefined, and their sums. Each of them is a whole number of steps of the least
positive double, or infinite: that is its `level`, and by their levels such doubles are compared (`lt_iff_level`,
`le_iff_level`). A sum of two of them is one again and not below either; a zero adds nothing (`nonneg_add`,
`level_add_zero`, `level_zero_add`). The level of a sum depends on the levels of what is added alone, and so not on the
sign of a zero (`level_add_congr`).

The work is in rounding. What a double is unpacked to is `Canonical`: its mantissa has 53 binary digits, or fewer at
the least exponent. An exact sum of `n` steps is cut to the first 53 digits, and the digits behind the cut decide whether
the last one goes up (`RoundsTo`, `roundsTo_round`). Whatever is canonical and not above the sum is not above its cut
either (`le_of_cut`), so that rounding never goes below it (`spec_of_roundsTo`).
-/

namespace Foliage.Double

open Float.Model (UnpackedFloat Format totalExponent)
open Float.Model.UnpackedFloat

/-! ## The form of doubles -/

/-- A number as doubles are unpacked: with a mantissa of 53 bits, or of fewer and the least exponent. -/
def Canonical : UnpackedFloat → Prop
  | .finite _ m e _ => m < 2 ^ 53 ∧ -1074 ≤ e ∧ (2 ^ 52 ≤ m ∨ e = -1074)
  | _ => True

/-- The exponent is one that a double can have. -/
def Fits : UnpackedFloat → Prop
  | .finite _ _ e _ => e ≤ 971
  | _ => True

/-- Neither below zero nor undefined. -/
def Upright : UnpackedFloat → Prop
  | .zero _ | .infinity .positive | .finite .positive .. => True
  | _ => False

/-- How far a number is from zero, in steps of the least positive double. -/
def height : UnpackedFloat → ℕ∞
  | .zero _ => 0
  | .finite _ m e _ => (m * 2 ^ (e + 1074).toNat : ℕ)
  | _ => ⊤

theorem toNat_append_one (m : BitVec 52) : (1#1 ++ m).toNat = 2 ^ 52 + m.toNat := by
  rw [BitVec.toNat_append, ← Nat.shiftLeft_add_eq_or_of_lt m.isLt]
  rfl

theorem canonical_unpack (b : BitVec Format.binary64.numBits) :
    Canonical (unpack Format.binary64 b) ∧ Fits (unpack Format.binary64 b) := by
  unfold unpack
  dsimp only
  have hm : (unpackMantissa b).toNat < 2 ^ 52 := (unpackMantissa b).isLt
  have he : (unpackExponent b).toNat < 2 ^ 11 := (unpackExponent b).isLt
  have hbias : Format.binary64.exponentBias = 1023 := rfl
  split
  · split <;> exact ⟨trivial, trivial⟩
  · rename_i htop
    have htop' : (unpackExponent b).toNat ≠ 2047 := fun h => htop (BitVec.eq_of_toNat_eq (by rw [h]; rfl))
    split
    · rename_i hzero
      rw [hzero]
      split
      · exact ⟨trivial, trivial⟩
      · exact ⟨⟨by omega, by simp [hbias], .inr (by simp [hbias])⟩, by simp [Fits, hbias]⟩
    · rename_i hzero
      have hzero' : (unpackExponent b).toNat ≠ 0 := fun h => hzero (BitVec.eq_of_toNat_eq (by rw [h]; rfl))
      simp only [Canonical, Fits, hbias]
      rw [toNat_append_one]
      omega

theorem ofBitVec_unpackSign {spec : Format} (s : Sign) (e : BitVec spec.exponentBits)
    (m : BitVec spec.mantissaBitsWithoutImplicit) : Sign.ofBitVec (unpackSign (packComponents spec s e m)) = s := by
  have hbit : unpackSign (packComponents spec s e m) = s.toBitVec := by
    refine BitVec.eq_of_getLsbD_eq fun i hi => ?_
    obtain rfl : i = 0 := by omega
    simp [unpackSign, packComponents, BitVec.getLsbD_append, BitVec.getElem_append]
  rw [hbit]
  cases s <;> rfl

/-- What is read back from the components of a double. -/
theorem unpack_packComponents (s : Sign) (e : BitVec Format.binary64.exponentBits)
    (m : BitVec Format.binary64.mantissaBitsWithoutImplicit) :
    unpack Format.binary64 (packComponents Format.binary64 s e m) =
      if e = -1#_ then if m = 0#_ then .infinity s else .notANumber
      else if e = 0#_ then
        if h : m = 0#_ then .zero s
        else .finite s m.toNat (-1074) (by simpa [BitVec.toNat_pos, BitVec.pos_iff_ne_zero])
      else .finite s (1#1 ++ m).toNat (e.toNat - 1075) (by rw [toNat_append_one]; omega) := by
  unfold unpack
  simp only [unpackMantissa_packComponents, unpackExponent_packComponents, ofBitVec_unpackSign]
  split
  · rfl
  · split
    · rename_i he
      subst he
      rfl
    · rfl

theorem unpack_normal (s : Sign) {x : Nat} (hx : 0 < x) (hx' : x < 2047) (m : BitVec 52) :
    unpack Format.binary64 (packComponents Format.binary64 s (BitVec.ofNat 11 x) m) =
      .finite s (2 ^ 52 + m.toNat) (x - 1075) (by omega) := by
  have hread : (BitVec.ofNat 11 x).toNat = x := by rw [BitVec.toNat_ofNat, Nat.mod_eq_of_lt (by omega)]
  have htop : BitVec.ofNat 11 x ≠ -1#11 := fun h => by
    have hall : x = 2047 := hread.symm.trans (congrArg BitVec.toNat h)
    omega
  have hzero : BitVec.ofNat 11 x ≠ 0#11 := fun h => by
    have hnone : x = 0 := hread.symm.trans (congrArg BitVec.toNat h)
    omega
  rw [unpack_packComponents]
  refine (if_neg htop).trans ((if_neg hzero).trans ?_)
  rw [finite.injEq, toNat_append_one, hread]
  exact ⟨rfl, rfl, rfl⟩

theorem unpack_subnormal (s : Sign) {m : Nat} (hm : 0 < m) (hm' : m < 2 ^ 52) :
    unpack Format.binary64 (packComponents Format.binary64 s 0 (BitVec.ofNat 52 m)) = .finite s m (-1074) hm := by
  have hread : (BitVec.ofNat 52 m).toNat = m := by rw [BitVec.toNat_ofNat, Nat.mod_eq_of_lt hm']
  have hzero : BitVec.ofNat 52 m ≠ 0#52 := fun h => by
    have hnone : m = 0 := hread.symm.trans (congrArg BitVec.toNat h)
    omega
  rw [unpack_packComponents]
  refine (if_neg (by decide)).trans ((if_pos rfl).trans ((dif_neg hzero).trans ?_))
  rw [finite.injEq]
  exact ⟨rfl, hread, rfl⟩

/-- **What fits into a double is read back** as it was. -/
theorem unpack_pack {u : UnpackedFloat} (hc : Canonical u) (hf : Fits u) :
    unpack Format.binary64 (pack Format.binary64 u) = u := by
  cases u with
  | zero s => exact unpack_packComponents s 0 0
  | infinity s => exact unpack_packComponents s (-1#_) 0
  | notANumber => exact unpack_packComponents .positive (-1#_) (1#_ <<< (52 - 1))
  | finite s m e hm =>
    obtain ⟨hlt, hleast, hnormal⟩ := hc
    have he : e ≤ 971 := hf
    have hbias : Format.binary64.exponentBias = 1023 := rfl
    have hbits : Format.binary64.mantissaBits = 53 := rfl
    have hlog : m.log2 < 53 := (Nat.log2_lt hm.ne').mpr hlt
    unfold pack
    simp only [hbias, hbits]
    rw [if_neg (by omega)]
    by_cases hn : 2 ^ 52 ≤ m
    · have hlog' : 52 ≤ m.log2 := (Nat.le_log2 hm.ne').mpr hn
      rw [if_pos (by omega)]
      refine (unpack_normal s (x := (e + 1023 + 52).toNat) (by omega) (by omega) (BitVec.ofNat 52 m)).trans ?_
      rw [finite.injEq, BitVec.toNat_ofNat]
      refine ⟨rfl, by omega, by omega⟩
    · have hlog' : ¬ 52 ≤ m.log2 := fun h => hn ((Nat.le_log2 hm.ne').mp h)
      rw [if_neg (by omega)]
      refine (unpack_subnormal s hm (by omega)).trans ?_
      rw [finite.injEq]
      exact ⟨rfl, rfl, (hnormal.resolve_left hn).symm⟩

theorem unpack_pack_infinity {s : Sign} {m : Nat} {e : Int} (hm : 0 < m) (he : 971 < e) :
    unpack Format.binary64 (pack Format.binary64 (.finite s m e hm)) = .infinity s := by
  have hbias : Format.binary64.exponentBias = 1023 := rfl
  unfold pack
  simp only [hbias]
  rw [if_pos (by omega)]
  exact unpack_packComponents s (-1#_) 0

/-! ## Rounding -/

theorem log2_mul_two_pow {m : Nat} (hm : m ≠ 0) (k : Nat) : (m * 2 ^ k).log2 = m.log2 + k := by
  refine (Nat.log2_eq_iff (Nat.mul_ne_zero hm (Nat.two_pow_pos k).ne')).mpr ⟨?_, ?_⟩
  · rw [Nat.pow_add]
    exact Nat.mul_le_mul_right _ (Nat.log2_self_le hm)
  · rw [Nat.add_right_comm, Nat.pow_add]
    exact Nat.mul_lt_mul_of_pos_right Nat.lt_log2_self (Nat.two_pow_pos k)

theorem mantissa_shiftRight (em : ExtendedMantissa) (n : Nat) : (em >>> n).mantissa = em.mantissa / 2 ^ n := by
  show (n.repeat ExtendedMantissa.shiftRightOne em).mantissa = _
  induction n with
  | zero => simp [Nat.repeat]
  | succ n ih =>
    show (n.repeat ExtendedMantissa.shiftRightOne em).mantissa / 2 = _
    rw [ih, Nat.div_div_eq_div_mul, Nat.pow_succ]

theorem roundedMantissa_bounds (em : ExtendedMantissa) :
    em.mantissa ≤ em.roundedMantissa ∧ em.roundedMantissa ≤ em.mantissa + 1 := by
  obtain ⟨m, round, sticky⟩ := em
  cases round <;> cases sticky <;>
    simp only [ExtendedMantissa.roundedMantissa, ExtendedMantissa.accuracy, Accuracy.roundToNearestEven] <;> omega

theorem targetExponent_eq (m i : Nat) :
    Format.binary64.targetExponent (totalExponent m (i - 1074)) = ((m.log2 + 1 + i - 53 : Nat) : Int) - 1074 := by
  have hbits : Format.binary64.mantissaBits = 53 := rfl
  have hleast : Format.binary64.minExponent = -1074 := rfl
  rw [Format.targetExponent, totalExponent, hbits, hleast]
  omega

/-- A mantissa is cut to 53 binary digits, and not at all if its exponent is larger than that of the cut. -/
theorem shiftToTargetExponent_eq (m i : Nat) :
    (shiftToTargetExponent Format.binary64 m (i - 1074) .exact).1.mantissa = m / 2 ^ (m.log2 + 1 + i - 53 - i) ∧
      (shiftToTargetExponent Format.binary64 m (i - 1074) .exact).2 =
        ((max i (m.log2 + 1 + i - 53) : Nat) : Int) - 1074 := by
  have hshift : (((m.log2 + 1 + i - 53 : Nat) : Int) - 1074 - (i - 1074)).toNat = m.log2 + 1 + i - 53 - i := by omega
  unfold shiftToTargetExponent
  rw [targetExponent_eq, shiftToExponent, hshift]
  refine ⟨mantissa_shiftRight _ _, ?_⟩
  show (i : Int) - 1074 + (m.log2 + 1 + i - 53 - i : Nat) = _
  omega

/-- A mantissa rounded to 53 digits is cut once more if it has become a power of two, without loss. -/
theorem exists_shifted {r j : Nat} (hr : r ≤ 2 ^ 53) (hj : j = 0 ∨ 2 ^ 52 ≤ r) :
    ∃ m i : Nat, (shiftToTargetExponent Format.binary64 r (j - 1074) .exact).1.mantissa = m ∧
      (shiftToTargetExponent Format.binary64 r (j - 1074) .exact).2 = (i : Int) - 1074 ∧
      m * 2 ^ i = r * 2 ^ j ∧ m < 2 ^ 53 ∧ (2 ^ 52 ≤ m ∨ i = 0) := by
  obtain ⟨hmantissa, hexponent⟩ := shiftToTargetExponent_eq r j
  refine ⟨_, _, hmantissa, hexponent, ?_⟩
  rcases Nat.lt_or_eq_of_le hr with hlt | rfl
  · have hlog : r.log2 < 53 := by
      by_cases hz : r = 0
      · rw [hz]
        decide
      · exact (Nat.log2_lt hz).mpr hlt
    have hshift : r.log2 + 1 + j - 53 - j = 0 := by omega
    have hmax : max j (r.log2 + 1 + j - 53) = j := by omega
    rw [hshift, hmax, Nat.pow_zero, Nat.div_one]
    exact ⟨rfl, hlt, hj.symm⟩
  · have hshift : (2 ^ 53).log2 + 1 + j - 53 - j = 1 := by
      rw [Nat.log2_two_pow]
      omega
    have hmax : max j ((2 ^ 53).log2 + 1 + j - 53) = j + 1 := by
      rw [Nat.log2_two_pow]
      omega
    rw [hshift, hmax, Nat.pow_succ 2 j]
    omega

/-- The number of binary digits behind the first 53. -/
def excess (n : Nat) : Nat := n.log2 + 1 - 53

/-- The cut leaves 53 digits, or all of them. -/
theorem cut_bounds {n : Nat} (hn : n ≠ 0) :
    n / 2 ^ excess n < 2 ^ 53 ∧ (excess n = 0 ∨ 2 ^ 52 ≤ n / 2 ^ excess n) := by
  have hlow := Nat.log2_self_le hn
  have hhigh : n < 2 ^ (n.log2 + 1) := Nat.lt_log2_self
  unfold excess
  refine ⟨?_, ?_⟩
  · rw [Nat.div_lt_iff_lt_mul (Nat.two_pow_pos _), ← Nat.pow_add]
    exact hhigh.trans_le (Nat.pow_le_pow_right (by decide) (by omega))
  · refine (Nat.eq_zero_or_pos _).imp_right fun hpos => ?_
    rw [Nat.le_div_iff_mul_le (Nat.two_pow_pos _), ← Nat.pow_add]
    exact (Nat.pow_le_pow_right (by decide) (by omega)).trans hlow

theorem cut_pos {n : Nat} (hn : 0 < n) : 0 < n / 2 ^ excess n := by
  rcases (cut_bounds hn.ne').2 with hzero | hfull
  · rwa [hzero, Nat.pow_zero, Nat.div_one]
  · exact (Nat.two_pow_pos 52).trans_le hfull

/-- The number is what `n` steps of the least double are rounded to: its mantissa has 53 digits, or fewer at the least
exponent, and it is not below the first 53 digits of `n`. -/
def RoundsTo (n : Nat) (u : UnpackedFloat) : Prop :=
  ∃ (m i r : Nat) (h : 0 < m), u = .finite .positive m (i - 1074) h ∧ m < 2 ^ 53 ∧ (2 ^ 52 ≤ m ∨ i = 0) ∧
    m * 2 ^ i = r * 2 ^ excess n ∧ n / 2 ^ excess n ≤ r

/-- A mantissa is rounded whose exponent is not above that of the cut. -/
theorem roundsTo_roundWithAccuracy {m i : Nat} (hm : 0 < m) (hi : i ≤ excess (m * 2 ^ i)) :
    RoundsTo (m * 2 ^ i) (roundWithAccuracy Format.binary64 .positive m (i - 1074) .exact) := by
  have hexcess : excess (m * 2 ^ i) = m.log2 + 1 + i - 53 := by
    rw [excess, log2_mul_two_pow hm.ne']
    omega
  have hn : 0 < m * 2 ^ i := Nat.mul_pos hm (Nat.two_pow_pos i)
  obtain ⟨hmantissa, hexponent⟩ := shiftToTargetExponent_eq m i
  rw [← hexcess] at hmantissa hexponent
  generalize hfirst : shiftToTargetExponent Format.binary64 m (i - 1074) .exact = first at hmantissa hexponent
  obtain ⟨em, e⟩ := first
  obtain rfl : e = (excess (m * 2 ^ i) : Int) - 1074 := by
    rw [show e = _ from hexponent, Nat.max_eq_right hi]
  have hcut : em.mantissa = m * 2 ^ i / 2 ^ excess (m * 2 ^ i) := by
    rw [show em.mantissa = _ from hmantissa, ← Nat.mul_div_mul_right m _ (Nat.two_pow_pos i), ← Nat.pow_add,
      Nat.sub_add_cancel hi]
  obtain ⟨hlt, hfull⟩ := cut_bounds hn.ne'
  obtain ⟨hlower, hupper⟩ := roundedMantissa_bounds em
  rw [hcut] at hlower hupper
  -- the last digit may go up, and then there may be one digit too many
  obtain ⟨m', i', hm', hi', hvalue, hlt', hnormal⟩ :=
    exists_shifted (hupper.trans hlt) (hfull.imp_right hlower.trans')
  have hpos : 0 < m' := by
    refine Nat.pos_of_ne_zero fun hzero => ?_
    rw [hzero, Nat.zero_mul] at hvalue
    exact (Nat.mul_pos ((cut_pos hn).trans_le hlower) (Nat.two_pow_pos _)).ne hvalue
  refine ⟨m', i', _, hpos, ?_, hlt', hnormal, hvalue, hlower⟩
  unfold roundWithAccuracy
  simp only [hfirst, hm', hi']
  exact dif_neg hpos.ne'

theorem roundsTo_round {m i : Nat} (hm : 0 < m) :
    RoundsTo (m * 2 ^ i) (UnpackedFloat.round Format.binary64 .positive m (i - 1074)) := by
  have hexcess : excess (m * 2 ^ i) = m.log2 + 1 + i - 53 := by
    rw [excess, log2_mul_two_pow hm.ne']
    omega
  -- an exponent above that of the cut is lowered to it first
  let k := i - excess (m * 2 ^ i)
  have hshift : ((i : Int) - 1074 - (((m.log2 + 1 + i - 53 : Nat) : Int) - 1074)).toNat = k := by omega
  have hexponent : (i : Int) - 1074 - (k : Int) = ((i - k : Nat) : Int) - 1074 := by omega
  have hsame : m * 2 ^ k * 2 ^ (i - k) = m * 2 ^ i := by
    rw [Nat.mul_assoc, ← Nat.pow_add, Nat.add_sub_cancel' (Nat.sub_le _ _)]
  unfold UnpackedFloat.round
  simp only [targetExponent_eq, decreaseExponent, hshift, Nat.shiftLeft_eq, hexponent]
  rw [← hsame]
  exact roundsTo_roundWithAccuracy (Nat.mul_pos hm (Nat.two_pow_pos k)) (by rw [hsame]; omega)

/-- What has 53 digits and is not above a number is not above the number cut and rounded either. -/
theorem le_of_cut {n r a k : Nat} (hn : n ≠ 0) (hr : n / 2 ^ excess n ≤ r) (ha : a < 2 ^ 53) (h : a * 2 ^ k ≤ n) :
    a * 2 ^ k ≤ r * 2 ^ excess n := by
  have hfull := (cut_bounds hn).2
  generalize excess n = j at hr hfull
  rcases Nat.le_total j k with hjk | hkj
  · have hsplit : a * 2 ^ k = a * 2 ^ (k - j) * 2 ^ j := by
      rw [Nat.mul_assoc, ← Nat.pow_add, Nat.sub_add_cancel hjk]
    rw [hsplit] at h ⊢
    exact Nat.mul_le_mul_right _ (((Nat.le_div_iff_mul_le (Nat.two_pow_pos j)).mpr h).trans hr)
  · rcases hkj.eq_or_lt with rfl | hlt
    · exact Nat.mul_le_mul_right _ (((Nat.le_div_iff_mul_le (Nat.two_pow_pos _)).mpr h).trans hr)
    · have hbig : 2 ^ 52 ≤ r := (hfull.resolve_left (Nat.ne_of_gt (Nat.zero_lt_of_lt hlt))).trans hr
      calc a * 2 ^ k ≤ 2 ^ 53 * 2 ^ k := Nat.mul_le_mul_right _ ha.le
        _ = 2 ^ 52 * 2 ^ (k + 1) := by rw [Nat.pow_succ 2 k]; omega
        _ ≤ r * 2 ^ j := Nat.mul_le_mul hbig (Nat.pow_le_pow_right (by decide) hlt)

/-- **Rounding** keeps the form of doubles, and none of them is between a number and what it is rounded to. -/
theorem spec_of_roundsTo {n : Nat} (hn : 0 < n) {u : UnpackedFloat} (hu : RoundsTo n u) :
    Canonical u ∧ Upright u ∧ ∀ v, Canonical v → height v ≤ n → height v ≤ height u := by
  obtain ⟨m, i, r, hm, rfl, hlt, hnormal, hvalue, hr⟩ := hu
  refine ⟨⟨hlt, by omega, by omega⟩, trivial, fun v hv hle => ?_⟩
  cases v with
  | zero s => exact zero_le
  | infinity s => exact absurd (top_le_iff.mp hle) (ENat.natCast_ne_top n)
  | notANumber => exact absurd (top_le_iff.mp hle) (ENat.natCast_ne_top n)
  | finite s a e ha =>
    have hi : ((i : Int) - 1074 + 1074).toNat = i := by omega
    simp only [height, hi, Nat.cast_le] at hle ⊢
    rw [hvalue]
    exact le_of_cut hn.ne' hr hv.1 hle

/-! ## Order -/

/-- Of two doubles, the one with the larger exponent is higher. -/
theorem height_lt_of_exponent_lt {m n : Nat} {d e : Int} (hm : m < 2 ^ 53) (hd : -1074 ≤ d)
    (hn : 2 ^ 52 ≤ n ∨ e = -1074) (h : d < e) : m * 2 ^ (d + 1074).toNat < n * 2 ^ (e + 1074).toNat := by
  have hn : 2 ^ 52 ≤ n := hn.resolve_right (by omega)
  calc m * 2 ^ (d + 1074).toNat < 2 ^ 53 * 2 ^ (d + 1074).toNat := Nat.mul_lt_mul_of_pos_right hm (Nat.two_pow_pos _)
    _ = 2 ^ 52 * 2 ^ ((d + 1074).toNat + 1) := by rw [Nat.pow_succ 2 (d + 1074).toNat]; omega
    _ ≤ n * 2 ^ (e + 1074).toNat := Nat.mul_le_mul hn (Nat.pow_le_pow_right (by decide) (by omega))

theorem upright_iff {u : UnpackedFloat} : Upright u ↔
    (∃ s, u = .zero s) ∨ u = .infinity .positive ∨ ∃ m e h, u = .finite .positive m e h := by
  constructor
  · intro hu
    match u, hu with
    | .zero s, _ => exact .inl ⟨s, rfl⟩
    | .infinity .positive, _ => exact .inr (.inl rfl)
    | .finite .positive m e h, _ => exact .inr (.inr ⟨m, e, h, rfl⟩)
  · rintro (⟨s, rfl⟩ | rfl | ⟨m, e, h, rfl⟩) <;> trivial

theorem height_pos {m : Nat} (hm : 0 < m) (e : Int) : (0 : ℕ∞) < (m * 2 ^ (e + 1074).toNat : Nat) :=
  Nat.cast_lt.mpr (Nat.mul_pos hm (Nat.two_pow_pos _))

/-- Numbers that are not below zero are compared by their heights. -/
theorem compare_eq {u v : UnpackedFloat} (hu : Canonical u) (hv : Canonical v) (hu' : Upright u) (hv' : Upright v) :
    u.compare v = some (compare (height u) (height v)) := by
  rcases upright_iff.mp hu' with ⟨s, rfl⟩ | rfl | ⟨m, d, hm, rfl⟩ <;>
    rcases upright_iff.mp hv' with ⟨t, rfl⟩ | rfl | ⟨n, e, hn, rfl⟩ <;> refine congrArg some ?_
  · exact (compare_eq_iff_eq.mpr rfl).symm
  · exact (compare_lt_iff_lt.mpr (ENat.natCast_lt_top 0)).symm
  · exact (compare_lt_iff_lt.mpr (height_pos hn e)).symm
  · exact (compare_gt_iff_gt.mpr (ENat.natCast_lt_top 0)).symm
  · exact (compare_eq_iff_eq.mpr rfl).symm
  · exact (compare_gt_iff_gt.mpr (ENat.natCast_lt_top _)).symm
  · exact (compare_gt_iff_gt.mpr (height_pos hm d)).symm
  · exact (compare_lt_iff_lt.mpr (ENat.natCast_lt_top _)).symm
  · obtain ⟨hm', hd, hm''⟩ := hu
    obtain ⟨hn', he, hn''⟩ := hv
    rcases lt_trichotomy d e with h | rfl | h
    · rw [compare_lt_iff_lt.mpr h]
      exact (compare_lt_iff_lt.mpr (Nat.cast_lt.mpr (height_lt_of_exponent_lt hm' hd hn'' h))).symm
    -- with the same exponent the mantissas decide
    · have hmono : StrictMono fun k : Nat => ((k * 2 ^ (d + 1074).toNat : Nat) : ℕ∞) := fun _ _ h =>
        Nat.cast_lt.mpr (Nat.mul_lt_mul_of_pos_right h (Nat.two_pow_pos _))
      rw [compare_eq_iff_eq.mpr rfl, ← cmp_eq_compare (height _)]
      exact (cmp_eq_compare m n).symm.trans (hmono.cmp_map_eq m n).symm
    · rw [compare_gt_iff_gt.mpr h]
      exact (compare_gt_iff_gt.mpr (Nat.cast_lt.mpr (height_lt_of_exponent_lt hn' he hm'' h))).symm

/-! ## Addition -/

theorem add_finite {m n : Nat} (hm : 0 < m) (hn : 0 < n) (i k : Nat) :
    add Format.binary64 (.finite .positive m (i - 1074) hm) (.finite .positive n (k - 1074) hn) =
      UnpackedFloat.round Format.binary64 .positive (m * 2 ^ (i - min i k) + n * 2 ^ (k - min i k))
        ((min i k : Nat) - 1074) := by
  have hmin : min ((i : Int) - 1074) (k - 1074) = ((min i k : Nat) : Int) - 1074 := by omega
  have hi : ((i : Int) - 1074 - (((min i k : Nat) : Int) - 1074)).toNat = i - min i k := by omega
  have hk : ((k : Int) - 1074 - (((min i k : Nat) : Int) - 1074)).toNat = k - min i k := by omega
  have hpos : 0 < m * 2 ^ (i - min i k) + n * 2 ^ (k - min i k) :=
    Nat.add_pos_left (Nat.mul_pos hm (Nat.two_pow_pos _)) _
  simp only [add, hmin, decreaseExponent, hi, hk, Nat.shiftLeft_eq, Sign.apply, ← Int.natCast_add]
  rw [UnpackedFloat.normalize, show compare ((m * 2 ^ (i - min i k) + n * 2 ^ (k - min i k) : Nat) : Int) 0 = .gt from
    compare_gt_iff_gt.mpr (Int.natCast_pos.mpr hpos)]
  rfl

/-- **A sum is not below what it is added to**, when nothing added is below zero. -/
theorem add_spec {u v : UnpackedFloat} (hu : Canonical u) (hv : Canonical v) (hu' : Upright u) (hv' : Upright v) :
    Canonical (add Format.binary64 u v) ∧ Upright (add Format.binary64 u v) ∧
      height u ≤ height (add Format.binary64 u v) := by
  rcases upright_iff.mp hu' with ⟨s, rfl⟩ | rfl | ⟨m, d, hm, rfl⟩ <;>
    rcases upright_iff.mp hv' with ⟨t, rfl⟩ | rfl | ⟨n, e, hn, rfl⟩
  · cases s <;> cases t <;> exact ⟨trivial, trivial, le_rfl⟩
  · exact ⟨trivial, trivial, le_top⟩
  · exact ⟨hv, trivial, zero_le⟩
  · exact ⟨trivial, trivial, le_rfl⟩
  · exact ⟨trivial, trivial, le_rfl⟩
  · exact ⟨trivial, trivial, le_rfl⟩
  · exact ⟨hu, trivial, le_rfl⟩
  · exact ⟨trivial, trivial, le_top⟩
  · obtain ⟨i, rfl⟩ : ∃ i : Nat, d = i - 1074 := ⟨(d + 1074).toNat, by have := hu.2.1; omega⟩
    obtain ⟨k, rfl⟩ : ∃ k : Nat, e = k - 1074 := ⟨(e + 1074).toNat, by have := hv.2.1; omega⟩
    rw [add_finite]
    have hpos : 0 < m * 2 ^ (i - min i k) + n * 2 ^ (k - min i k) :=
      Nat.add_pos_left (Nat.mul_pos hm (Nat.two_pow_pos _)) _
    obtain ⟨hcanonical, hupright, hround⟩ :=
      spec_of_roundsTo (Nat.mul_pos hpos (Nat.two_pow_pos (min i k))) (roundsTo_round hpos)
    refine ⟨hcanonical, hupright, hround _ hu (Nat.cast_le.mpr ?_)⟩
    have hi : ((i : Int) - 1074 + 1074).toNat = i := by omega
    calc m * 2 ^ ((i : Int) - 1074 + 1074).toNat = m * 2 ^ (i - min i k) * 2 ^ min i k := by
          rw [hi, Nat.mul_assoc, ← Nat.pow_add]
          congr 2
          omega
      _ ≤ (m * 2 ^ (i - min i k) + n * 2 ^ (k - min i k)) * 2 ^ min i k :=
          Nat.mul_le_mul_right _ (Nat.le_add_right _ _)

theorem add_zero_spec {u : UnpackedFloat} (hu' : Upright u) (hf : Fits u) (t : Sign) :
    Fits (add Format.binary64 u (.zero t)) ∧ height (add Format.binary64 u (.zero t)) = height u := by
  rcases upright_iff.mp hu' with ⟨s, rfl⟩ | rfl | ⟨m, d, hm, rfl⟩
  · cases s <;> cases t <;> exact ⟨trivial, rfl⟩
  · exact ⟨trivial, rfl⟩
  · exact ⟨hf, rfl⟩

theorem zero_add_spec {u : UnpackedFloat} (hu' : Upright u) (hf : Fits u) (t : Sign) :
    Fits (add Format.binary64 (.zero t) u) ∧ height (add Format.binary64 (.zero t) u) = height u := by
  rcases upright_iff.mp hu' with ⟨s, rfl⟩ | rfl | ⟨m, d, hm, rfl⟩
  · cases t <;> cases s <;> exact ⟨trivial, rfl⟩
  · exact ⟨trivial, rfl⟩
  · exact ⟨hf, rfl⟩

/-! ## Doubles -/

/-- Neither below zero nor undefined. -/
def NonNeg (a : Float) : Prop := Upright a.toModel.unpack

/-- How far a double is from zero, in steps of the least positive one. -/
def level (a : Float) : ℕ∞ := height a.toModel.unpack

theorem canonical_double (a : Float) : Canonical a.toModel.unpack ∧ Fits a.toModel.unpack := canonical_unpack _

variable {a b w : Float}

theorem lt_iff_compare : a < b ↔ a.toModel.unpack.compare b.toModel.unpack = some .lt := by
  refine decide_eq_true_iff.trans ?_
  show (a.toModel.unpack.compare b.toModel.unpack == some .lt) = true ↔ _
  exact beq_iff_eq

theorem le_iff_compare : a ≤ b ↔ ∃ o, a.toModel.unpack.compare b.toModel.unpack = some o ∧ o.isLE = true := by
  refine decide_eq_true_iff.trans ?_
  exact Option.any_eq_true _ _

theorem lt_iff_level (ha : NonNeg a) (hb : NonNeg b) : a < b ↔ level a < level b := by
  rw [lt_iff_compare, compare_eq (canonical_double a).1 (canonical_double b).1 ha hb, Option.some.injEq,
    compare_lt_iff_lt]
  rfl

theorem le_iff_level (ha : NonNeg a) (hb : NonNeg b) : a ≤ b ↔ level a ≤ level b := by
  rw [le_iff_compare, compare_eq (canonical_double a).1 (canonical_double b).1 ha hb]
  simp only [Option.some.injEq, exists_eq_left', Std.LawfulBCmp.isLE_iff_le]
  rfl

theorem unpack_add (a w : Float) :
    (a + w).toModel.unpack =
      unpack Format.binary64 (pack Format.binary64 (add Format.binary64 a.toModel.unpack w.toModel.unpack)) :=
  rfl

/-- A sum that is too large for a double is infinite. -/
theorem upright_unpack_pack {u : UnpackedFloat} (hc : Canonical u) (hu : Upright u) :
    Upright (unpack Format.binary64 (pack Format.binary64 u)) ∧
      height u ≤ height (unpack Format.binary64 (pack Format.binary64 u)) := by
  by_cases hf : Fits u
  · rw [unpack_pack hc hf]
    exact ⟨hu, le_rfl⟩
  · rcases upright_iff.mp hu with ⟨s, rfl⟩ | rfl | ⟨m, e, hm, rfl⟩
    · exact absurd trivial hf
    · exact absurd trivial hf
    · rw [unpack_pack_infinity hm (Int.not_le.mp hf)]
      exact ⟨trivial, le_top⟩

theorem nonneg_add (ha : NonNeg a) (hw : NonNeg w) : NonNeg (a + w) ∧ level a ≤ level (a + w) := by
  obtain ⟨hc, hu, hle⟩ := add_spec (canonical_double a).1 (canonical_double w).1 ha hw
  obtain ⟨hu', hle'⟩ := upright_unpack_pack hc hu
  unfold NonNeg level
  rw [unpack_add]
  exact ⟨hu', hle.trans hle'⟩

/-- Only a zero is at height zero. -/
theorem eq_zero_of_height {u : UnpackedFloat} (hu : Upright u) (h : height u = 0) : ∃ t, u = .zero t := by
  rcases upright_iff.mp hu with ⟨s, rfl⟩ | rfl | ⟨m, e, hm, rfl⟩
  · exact ⟨s, rfl⟩
  · exact absurd h ENat.top_ne_zero
  · exact absurd (Nat.cast_inj.mp h) (Nat.mul_pos hm (Nat.two_pow_pos _)).ne'

theorem level_add_zero (ha : NonNeg a) (hw : NonNeg w) (hzero : level w = 0) : level (a + w) = level a := by
  obtain ⟨t, ht⟩ := eq_zero_of_height hw hzero
  obtain ⟨hc, -, -⟩ := add_spec (canonical_double a).1 (canonical_double w).1 ha hw
  obtain ⟨hf, hheight⟩ := add_zero_spec ha (canonical_double a).2 t
  unfold level
  rw [unpack_add]
  rw [ht] at hc ⊢
  rw [unpack_pack hc hf, hheight]

theorem level_zero_add (ha : NonNeg a) (hw : NonNeg w) (hzero : level a = 0) : level (a + w) = level w := by
  obtain ⟨t, ht⟩ := eq_zero_of_height ha hzero
  obtain ⟨hc, -, -⟩ := add_spec (canonical_double a).1 (canonical_double w).1 ha hw
  obtain ⟨hf, hheight⟩ := zero_add_spec hw (canonical_double w).2 t
  unfold level
  rw [unpack_add]
  rw [ht] at hc ⊢
  rw [unpack_pack hc hf, hheight]

/-- Two numbers of the same height are the same, or zeros. -/
theorem eq_of_height_eq {u v : UnpackedFloat} (hu : Canonical u) (hv : Canonical v) (hu' : Upright u) (hv' : Upright v)
    (h : height u = height v) : u = v ∨ height u = 0 := by
  rcases upright_iff.mp hu' with ⟨s, rfl⟩ | rfl | ⟨m, d, hm, rfl⟩ <;>
    rcases upright_iff.mp hv' with ⟨t, rfl⟩ | rfl | ⟨n, e, hn, rfl⟩
  · exact .inr rfl
  · exact .inr rfl
  · exact .inr rfl
  · exact .inr h
  · exact .inl rfl
  · exact absurd h.symm (ENat.natCast_ne_top _)
  · exact .inr h
  · exact absurd h (ENat.natCast_ne_top _)
  · obtain ⟨hm', hd, hm''⟩ := hu
    obtain ⟨hn', he, hn''⟩ := hv
    have h : m * 2 ^ (d + 1074).toNat = n * 2 ^ (e + 1074).toNat := Nat.cast_inj.mp h
    rcases lt_trichotomy d e with hlt | rfl | hlt
    · exact absurd h (height_lt_of_exponent_lt hm' hd hn'' hlt).ne
    · obtain rfl := Nat.eq_of_mul_eq_mul_right (Nat.two_pow_pos _) h
      exact .inl rfl
    · exact absurd h (height_lt_of_exponent_lt hn' he hm'' hlt).ne'

theorem level_add_congr (ha : NonNeg a) (hb : NonNeg b) (hw : NonNeg w) (h : level a = level b) :
    level (a + w) = level (b + w) := by
  rcases eq_of_height_eq (canonical_double a).1 (canonical_double b).1 ha hb h with hsame | hzero
  · rw [level, level, unpack_add, unpack_add, hsame]
  · rw [level_zero_add ha hw hzero, level_zero_add hb hw (h.symm.trans hzero)]

section Zero

variable {z : Float} (hz : z.toModel.unpack = .zero .positive)

include hz

theorem nonneg_zero : NonNeg z := by
  rw [NonNeg, hz]
  trivial

theorem nonneg_iff : z ≤ a ↔ NonNeg a := by
  rw [le_iff_compare, hz, NonNeg]
  constructor
  · rintro ⟨o, ho, hle⟩
    match a.toModel.unpack, ho with
    | .zero s, _ => trivial
    | .infinity .positive, _ => trivial
    | .finite .positive m e h, _ => trivial
    | .infinity .negative, ho | .finite .negative m e h, ho =>
      cases ho
      cases hle
  · intro hu
    rcases upright_iff.mp hu with ⟨s, h⟩ | h | ⟨m, e, hm, h⟩ <;> rw [h] <;> exact ⟨_, rfl, rfl⟩

theorem level_eq_zero (ha : NonNeg a) (h : a ≤ z) : level a = 0 := by
  have hlevel : level z = 0 := by rw [level, hz, height]
  have hle := (le_iff_level ha (nonneg_zero hz)).mp h
  rw [hlevel] at hle
  exact le_antisymm hle zero_le

/-- A finite double that is not below zero. -/
theorem nonneg_of_isFinite (hfinite : a.isFinite = true) (h : ¬ a < z) : NonNeg a := by
  rw [lt_iff_compare, hz] at h
  have hfinite : a.toModel.unpack.isFinite = true := hfinite
  unfold NonNeg
  match a.toModel.unpack, hfinite, h with
  | .zero s, _, _ => trivial
  | .finite .positive m e hm, _, _ => trivial
  | .finite .negative m e hm, _, h => exact absurd rfl h

end Zero

end Foliage.Double
