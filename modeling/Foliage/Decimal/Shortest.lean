/-!
# Shortest decimals

A finite double stands for every real number that rounds to it. Among the decimals in that interval the shortest one
lies on the coarsest grid `10 ^ e` that has a point there; on that grid the point nearest the value is taken, and the
greater of two that are equally near (`shortest`). All comparisons are exact comparisons of natural numbers.
-/

namespace Foliage.Decimal

/-- A positive value `mantissa * 2 ^ exponent` with the neighbourhood of reals that round to it. -/
structure Binary where
  mantissa : Nat
  exponent : Int
  /-- The gap to the value below is half the gap to the value above. -/
  narrow : Bool
deriving Repr, DecidableEq

/-- The magnitude of a finite double. -/
def Binary.ofFloat (x : Float) : Binary :=
  let biased := ((x.toBits >>> 52) &&& 0x7FF).toNat
  let fraction := (x.toBits &&& 0xFFFFFFFFFFFFF).toNat
  if biased = 0 then ⟨fraction, -1074, false⟩
  else ⟨Nat.pow 2 52 + fraction, (biased : Int) - 1075, decide (fraction = 0 ∧ 1 < biased)⟩

/-- A decimal `coefficient * 10 ^ exponent`. -/
structure Digits where
  coefficient : Nat
  exponent : Int
deriving Repr, DecidableEq

/-- `a * 10 ^ i` and `n * 2 ^ j`, as two natural numbers in the same proportion. -/
def scaled (a : Nat) (i : Int) (n : Nat) (j : Int) : Nat × Nat :=
  (a * Nat.pow 10 i.toNat * Nat.pow 2 (-j).toNat, n * Nat.pow 2 j.toNat * Nat.pow 10 (-i).toNat)

namespace Binary

/-- The real `d` rounds to `x`: it lies between the halfway points to the neighbours of `x`, which themselves round
to `x` when its mantissa is even. -/
def readsBack (x : Binary) (d : Digits) : Bool :=
  let low := scaled d.coefficient d.exponent (if x.narrow then 4 * x.mantissa - 1 else 4 * x.mantissa - 2) (x.exponent - 2)
  let high := scaled d.coefficient d.exponent (4 * x.mantissa + 2) (x.exponent - 2)
  if x.mantissa % 2 = 0 then low.2 ≤ low.1 && high.1 ≤ high.2 else low.2 < low.1 && high.1 < high.2

/-- The point of the grid `10 ^ e` that stands for `x`, if one rounds to `x`. -/
def onGrid? (x : Binary) (e : Int) : Option Digits :=
  let (value, unit) := (scaled 1 e x.mantissa x.exponent).swap
  let below : Digits := ⟨value / unit, e⟩
  let above : Digits := ⟨value / unit + 1, e⟩
  match x.readsBack below, x.readsBack above with
  | true, true => some (if 2 * (value % unit) < unit then below else above)
  | true, false => some below
  | false, true => some above
  | false, false => none

/-- A decimal exponent above that of every decimal that rounds to `x`. -/
def gridBound (x : Binary) : Int :=
  ((x.mantissa.log2 : Int) + x.exponent + 2) * 30103 / 100000 + 1

/-- The value itself, with as many digits as it takes. -/
def exact (x : Binary) : Digits :=
  if x.exponent < 0 then ⟨x.mantissa * Nat.pow 5 (-x.exponent).toNat, x.exponent⟩
  else ⟨x.mantissa * Nat.pow 2 x.exponent.toNat, 0⟩

/-- The first grid from `10 ^ e` downward, among the given number of grids, that has a point for `x`. -/
def firstGrid (x : Binary) : Nat → Int → Digits
  | 0, _ => x.exact
  | grids + 1, e => (x.onGrid? e).getD (firstGrid x grids (e - 1))

/-- The shortest decimal that rounds to `x`. Seventeen digits always do, so that few grids need a look. -/
def shortest (x : Binary) : Digits := x.firstGrid 24 x.gridBound

end Binary

end Foliage.Decimal
