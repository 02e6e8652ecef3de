import Foliage.Interpreter
import Foliage.Proofs.PartialMap

/-!
# Stamps that can always be given

An ornament is `Whole` when it has every vertex that its triangles name. Then it can be given at every position and with
every heading, and its stamp by a turtle as well as by all members of a population.
-/

namespace Foliage

variable {K : Type}

/-- The ornament has every vertex that its triangles name. -/
def Ornament.Whole (o : Ornament K) : Prop := ∀ t ∈ o.triangles, ∀ k ∈ t.corners, k < o.vertices.size

/-- The stamp has faces to give wherever it is placed. -/
def Stamp.Total (s : Stamp K) : Prop := ∀ position heading, (s.faces? position heading).isSome

theorem isSome_turtle_stamp {s : Stamp K} (h : s.Total) (t : Turtle K) : (t.stamp? s).isSome := h _ _

theorem isSome_population_stamp {s : Stamp K} (h : s.Total) (p : Population K) : (p.stamp? s).isSome := by
  have hmembers := isSome_mapM fun m (_ : m ∈ p.members) => isSome_turtle_stamp h m.turtle
  simpa [Population.stamp?] using hmembers

theorem total_of_whole [Scalar K] {o : Ornament K} (h : o.Whole) : o.stamp.Total := by
  intro position heading
  refine isSome_mapM fun t ht => isSome_mapM fun k hk => ?_
  simpa using h t ht k hk

end Foliage
