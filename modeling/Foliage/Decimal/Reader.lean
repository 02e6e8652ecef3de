/-!
# Reading doubles

The written forms of a double: an optional sign, then `inf`, `infinity` or `nan` in any case, or digits with an
optional point and an optional exponent, with a digit somewhere before the exponent. The value is the double nearest
the decimal.
-/

namespace Foliage.Decimal

/-- An unsigned decimal `coefficient * 10 ^ exponent` as it was written. -/
structure Literal where
  coefficient : Nat
  exponent : Int
deriving Repr, DecidableEq

/-- The number that a list of decimal digits writes. -/
def natOfDigits (cs : List Char) : Nat :=
  cs.foldl (fun n c => 10 * n + (c.toNat - '0'.toNat)) 0

/-- A sign, if there is one, and what follows; `true` for minus. -/
def splitSign : List Char → Bool × List Char
  | '+' :: cs => (false, cs)
  | '-' :: cs => (true, cs)
  | cs => (false, cs)

/-- The exponent that the rest of a literal writes: none, or `e` with an optional sign and some digits. -/
def readExponent : List Char → Option Int
  | [] => some 0
  | c :: cs =>
    let (negative, digits) := splitSign cs
    if (c = 'e' ∨ c = 'E') ∧ digits ≠ [] ∧ digits.all Char.isDigit then
      some (if negative then -(natOfDigits digits : Int) else natOfDigits digits)
    else none

/-- The fraction after an integral part: the digits behind a point, and what follows them. -/
def splitFraction : List Char → List Char × List Char
  | '.' :: cs => (cs.takeWhile Char.isDigit, cs.dropWhile Char.isDigit)
  | cs => ([], cs)

/-- An unsigned decimal literal. -/
def readLiteral (cs : List Char) : Option Literal :=
  let whole := cs.takeWhile Char.isDigit
  let (fraction, rest) := splitFraction (cs.dropWhile Char.isDigit)
  if whole = [] ∧ fraction = [] then none
  else (readExponent rest).map fun e => ⟨natOfDigits (whole ++ fraction), e - fraction.length⟩

/-- The double nearest a decimal. A decimal beyond every double is infinite and one below all of them is zero, which
is decided from its number of digits before a power of ten is formed. -/
def Literal.toFloat (l : Literal) : Float :=
  let leading := l.exponent + (Nat.toDigits 10 l.coefficient).length
  if l.coefficient = 0 ∨ leading < -330 then 0.0
  else if 310 < leading then 1.0 / 0.0
  else Float.ofScientific l.coefficient (decide (l.exponent < 0)) l.exponent.natAbs

/-- An unsigned double: a word for an infinite or undefined value, or a decimal literal. -/
def readMagnitude (cs : List Char) : Option Float :=
  let word := cs.map Char.toLower
  if word = "inf".toList ∨ word = "infinity".toList then some (1.0 / 0.0)
  else if word = "nan".toList then some (0.0 / 0.0)
  else (readLiteral cs).map Literal.toFloat

/-- A double with an optional sign. -/
def read (cs : List Char) : Option Float :=
  let (negative, rest) := splitSign cs
  (readMagnitude rest).map fun x => if negative then -x else x

end Foliage.Decimal
