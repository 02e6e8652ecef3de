import Foliage.Scalar
import Foliage.Decimal.Layout
import Foliage.Decimal.Reader

/-!
# Numerals

The written form of scalars, as it stands in symbol notation, in ornament files and in messages.
-/

namespace Foliage

/-- Why a text is no numeral. -/
inductive NumeralError where
  /-- Nothing was written. -/
  | empty
  /-- What was written is no number. -/
  | malformed
deriving Repr, DecidableEq

def NumeralError.message : NumeralError → String
  | .empty => "cannot parse float from empty string"
  | .malformed => "invalid float literal"

/-- Scalars that can be written and read. -/
class Numeral (K : Type) where
  /-- The shortest text of a scalar. -/
  write : K → List Char
  /-- The text of a scalar that always shows a fraction or an exponent. -/
  writePointed : K → List Char
  /-- The scalar that a text without surrounding blanks writes. -/
  read : List Char → Except NumeralError K

namespace Numeral

variable {K : Type} [Numeral K]

/-- The shortest text of a scalar. -/
def text (a : K) : String := String.ofList (write a)

end Numeral

instance : Numeral Float where
  write := Decimal.write Decimal.Digits.positional
  writePointed := Decimal.write Decimal.Digits.pointed
  read cs :=
    match Decimal.read cs with
    | some x => .ok x
    | none => .error (if cs = [] then .empty else .malformed)

end Foliage
