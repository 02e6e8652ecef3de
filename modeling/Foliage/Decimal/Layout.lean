import Foliage.Decimal.Shortest

/-!
# Layouts of decimals

How a double is written: `positional` never uses an exponent and leaves out a fraction of zero; `pointed` always shows
a fraction or an exponent, and writes an exponent outside of `10 ^ -4 ≤ x < 10 ^ 16`.
-/

namespace Foliage.Decimal

namespace Digits

/-- The digits of the coefficient. -/
def figures (d : Digits) : List Char := Nat.toDigits 10 d.coefficient

/-- The exponent of the leading digit. -/
def leading (d : Digits) : Int := d.exponent + d.figures.length - 1

/-- The decimal without an exponent. -/
def positional (d : Digits) : List Char :=
  if 0 ≤ d.exponent then d.figures ++ List.replicate d.exponent.toNat '0'
  else
    let places := (-d.exponent).toNat
    if places < d.figures.length then
      d.figures.take (d.figures.length - places) ++ '.' :: d.figures.drop (d.figures.length - places)
    else '0' :: '.' :: List.replicate (places - d.figures.length) '0' ++ d.figures

/-- The decimal with one digit before the point and an exponent. -/
def scientific (d : Digits) : List Char :=
  let mark := 'e' :: (toString d.leading).toList
  match d.figures with
  | [] => mark
  | [c] => c :: mark
  | c :: cs => c :: '.' :: cs ++ mark

/-- The decimal with a fraction or an exponent. -/
def pointed (d : Digits) : List Char :=
  if d.leading < -4 ∨ 15 < d.leading then d.scientific
  else if 0 ≤ d.exponent then d.positional ++ ['.', '0']
  else d.positional

end Digits

/-- A double in a given layout: `NaN`, `inf`, and a sign in front of negative values, zero included. -/
def write (layout : Digits → List Char) (x : Float) : List Char :=
  if x.isNaN then "NaN".toList
  else
    let magnitude :=
      if x.isInf then "inf".toList
      else if x == 0.0 then layout ⟨0, 0⟩
      else layout (Binary.ofFloat x).shortest
    if x.toBits >>> 63 = 1 then '-' :: magnitude else magnitude

end Foliage.Decimal
