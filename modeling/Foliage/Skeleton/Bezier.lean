import Foliage.Skeleton

/-!
# Skeletons along curves

Points of a Bezier curve, by repeated interpolation between neighbouring control points, and the chain of nodes that
samples the curve at equal steps of its parameter.
-/

namespace Foliage

variable {K : Type} [Scalar K]

/-- The point at `t` on the curve with the given control points, the first of which is apart. -/
def casteljau (t : K) (first : Vec K) : List (Vec K) → Vec K
  | [] => first
  | second :: rest =>
    casteljau t (first.lerp second t) (((second :: rest).zip rest).map fun p => p.1.lerp p.2 t)
termination_by rest => rest.length
decreasing_by simp

/-- The chain with further nodes at its end: as many as given, at the parameters `i / segments` from the given `i` on.
The last node so far is at `tip`. -/
def Skeleton.extendChain (segments : Nat) (first : Vec K) (rest : List (Vec K)) :
    (count i : Nat) → (tip : Nat) → Skeleton K → Skeleton K
  | 0, _, _, s => s
  | count + 1, i, tip, s =>
    let t : K := Scalar.ofNat i / Scalar.ofNat segments
    extendChain segments first rest count (i + 1) s.size (s.link tip (casteljau t first rest))

/-- The chain of nodes from the first to the last control point of a curve, in the given number of segments and at
least one. There is none without control points. -/
def Skeleton.ofCurve? (control : List (Vec K)) (segments : Nat) : Option (Skeleton K) :=
  match control with
  | [] => none
  | first :: rest =>
    let count := max segments 1
    some (extendChain count first rest count 1 Skeleton.root (.single first))

end Foliage
