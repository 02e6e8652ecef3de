import Foliage.Scalar

/-!
# Randomness

A source of randomness is a state that yields words of 64 bits one after the other. A uniform scalar takes exactly one
word, of which it uses the upper 52 bits.
-/

namespace Foliage

/-- A state that yields random words. -/
class RandomSource (σ : Type) where
  /-- The next word, and the state after it. -/
  next : σ → UInt64 × σ

namespace Random

variable {σ K : Type} [RandomSource σ] [Scalar K]

/-- The scalar in the unit interval that a word stands for. -/
def unitOfWord (word : UInt64) : K := Scalar.ofNat (word >>> 12).toNat * Scalar.powTwo (-52)

/-- A uniform scalar in `[0, bound)`. -/
def below (bound : K) (s : σ) : K × σ :=
  let (word, s) := RandomSource.next s
  (unitOfWord word * bound, s)

/-- A uniform scalar in `[0, 1)`. -/
def unit (s : σ) : K × σ := below 1 s

end Random

end Foliage
