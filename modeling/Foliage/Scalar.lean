/-!
# Scalars

The geometry, the grammar and the turtle are written over an arbitrary type `K` of scalars: a type with arithmetic,
a decidable order, a square root, sine and cosine. `Float` is the instance programs run on; the exact laws of the
geometry hold over an instance whose arithmetic is exact.

Only `<`, `≤` and `==` of the instance are used to compare scalars, so that a value that is unordered (a NaN) takes
the same branch everywhere.
-/

namespace Foliage

/-- A type of numbers on which turtle geometry can be done. -/
class Scalar (K : Type) extends Zero K, One K, Add K, Sub K, Mul K, Div K, Neg K, LT K, LE K, BEq K,
    OfScientific K where
  decLt : ∀ a b : K, Decidable (a < b)
  decLe : ∀ a b : K, Decidable (a ≤ b)
  /-- The scalar of a count. -/
  ofNat : Nat → K
  sqrt : K → K
  /-- The sine of an angle in radians. -/
  sin : K → K
  /-- The cosine of an angle in radians. -/
  cos : K → K
  /-- Neither infinite nor undefined. -/
  isFinite : K → Bool
  /-- Half a turn in radians. -/
  pi : K
  /-- `2 ^ n`, for an exponent of either sign. -/
  powTwo : Int → K

namespace Scalar

variable {K : Type} [Scalar K]

instance (a b : K) : Decidable (a < b) := decLt a b

instance (a b : K) : Decidable (a ≤ b) := decLe a b

/-- The magnitude; an unordered value keeps its own. -/
def abs (a : K) : K := if a < 0 then -a else a

/-- `a` moved into `[lo, hi]`; an unordered value stays as it is. -/
def clamp (a lo hi : K) : K := if a < lo then lo else if hi < a then hi else a

/-- The lesser of two scalars; the second when they are unordered. -/
def lesser (a b : K) : K := if a < b then a else b

/-- The greater of two scalars; the second when they are unordered. -/
def greater (a b : K) : K := if b < a then a else b

/-- Plus or minus one. A zero is negative when its reciprocal is. -/
def sign (a : K) : K := if a < 0 ∨ 1 / a < 0 then -1 else 1

def tau : K := pi + pi

def halfPi : K := pi * 0.5

def toRadians (degrees : K) : K := degrees * (pi / 180.0)

end Scalar

/-- `2 ^ n` as a double, infinite where it is too large. A negative power is the reciprocal of the positive one, so it
is zero as soon as that one is infinite. -/
def doublePowTwo (n : Int) : Float :=
  let size := if n.natAbs ≤ 1023 then Float.ofBits (UInt64.ofNat (n.natAbs + 1023) <<< 52) else 1.0 / 0.0
  if n < 0 then 1.0 / size else size

instance : Scalar Float where
  zero := 0.0
  one := 1.0
  decLt := Float.decLt
  decLe := Float.decLe
  ofNat := Float.ofNat
  sqrt := Float.sqrt
  sin := Float.sin
  cos := Float.cos
  isFinite := Float.isFinite
  pi := 3.141592653589793
  powTwo := doublePowTwo

end Foliage
