import Foliage.Proofs.Double.Finite

/-!
# The order of doubles

A double that is defined has a rank: its side of zero, then its exponent, then its mantissa, the latter two turned round
below zero. By their ranks doubles are compared (`lt_iff_rank`, `le_iff_rank`), so that those which are defined are in a
linear order, but for the two zeros, which share a rank and are equal (`beq_of_le_of_le`). A double that is not defined
is neither below another nor above it (`not_lt_of_isNaN`).
-/

namespace Foliage.Double

open Float.Model (UnpackedFloat)
open Float.Model.UnpackedFloat

/-- Where a number stands among all. -/
def rank : UnpackedFloat → ℤ ×ₗ ℤ ×ₗ ℤ
  | .infinity .negative => toLex (-2, toLex (0, 0))
  | .finite .negative m e _ => toLex (-1, toLex (-e, -m))
  | .zero _ | .notANumber => toLex (0, toLex (0, 0))
  | .finite .positive m e _ => toLex (1, toLex (e, m))
  | .infinity .positive => toLex (2, toLex (0, 0))

theorem compare_eq_lt_iff {u v : UnpackedFloat} (hu : u.isNaN = false) (hv : v.isNaN = false) :
    u.compare v = some .lt ↔ rank u < rank v := by
  match u, v, hu, hv with
  -- on one side of zero the exponents decide, then the mantissas
  | .finite .positive m d _, .finite .positive n e _, _, _ =>
    simp [UnpackedFloat.compare, rank, Prod.Lex.toLex_lt_toLex, Ordering.then_eq_lt, compare_lt_iff_lt]
  | .finite .negative m d _, .finite .negative n e _, _, _ =>
    simp [UnpackedFloat.compare, rank, Prod.Lex.toLex_lt_toLex, Ordering.then_eq_gt, compare_gt_iff_gt]
  | .finite .positive .., .finite .negative .., _, _ | .finite .negative .., .finite .positive .., _, _
  | .zero _, .zero _, _, _ =>
    simp [UnpackedFloat.compare, rank, Prod.Lex.toLex_lt_toLex]
  | .finite s .., .zero _, _, _ | .infinity s, .zero _, _, _ | .zero _, .finite s .., _, _
  | .zero _, .infinity s, _, _ =>
    cases s <;> simp [UnpackedFloat.compare, rank, Prod.Lex.toLex_lt_toLex]
  | .infinity s, .finite t .., _, _ | .finite s .., .infinity t, _, _ =>
    cases s <;> cases t <;> simp [UnpackedFloat.compare, rank, Prod.Lex.toLex_lt_toLex]
  | .infinity s, .infinity t, _, _ => cases s <;> cases t <;> decide

/-! ## Doubles -/

variable {a b : Float}

theorem lt_iff_rank (ha : a.isNaN = false) (hb : b.isNaN = false) :
    a < b ↔ rank a.toModel.unpack < rank b.toModel.unpack :=
  lt_iff_compare.trans (compare_eq_lt_iff ha hb)

theorem le_iff_not_lt (ha : a.isNaN = false) (hb : b.isNaN = false) : a ≤ b ↔ ¬ b < a := by
  obtain ⟨o, hab, hba⟩ := compare_swap ha hb
  rw [le_iff_compare, lt_iff_compare, hab, hba]
  cases o <;> simp

theorem le_iff_rank (ha : a.isNaN = false) (hb : b.isNaN = false) :
    a ≤ b ↔ rank a.toModel.unpack ≤ rank b.toModel.unpack := by
  rw [le_iff_not_lt ha hb, lt_iff_rank hb ha, not_lt]

theorem beq_of_le_of_le (ha : a.isNaN = false) (hb : b.isNaN = false) (hab : a ≤ b) (hba : b ≤ a) :
    (a == b) = true := by
  show (a.toModel.unpack.compare b.toModel.unpack == some .eq) = true
  obtain ⟨o, hcompare, hswap⟩ := compare_swap ha hb
  rw [le_iff_compare, hcompare] at hab
  rw [le_iff_compare, hswap] at hba
  rw [hcompare]
  cases o with
  | eq => rfl
  | lt => simp at hba
  | gt => simp at hab

theorem not_lt_of_isNaN (h : a.isNaN = true ∨ b.isNaN = true) : ¬ a < b := by
  have h : a.toModel.unpack.isNaN = true ∨ b.toModel.unpack.isNaN = true := h
  rw [lt_iff_compare]
  match a.toModel.unpack, b.toModel.unpack, h with
  | .notANumber, _, _ | .zero _, .notANumber, _ | .infinity _, .notANumber, _ | .finite .., .notANumber, _ =>
    exact nofun

end Foliage.Double
