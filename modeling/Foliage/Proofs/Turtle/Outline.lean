import Foliage.Proofs.Interpreter.Operations
import Foliage.Proofs.Population.Steering

/-!
# Outlines end at the turtle

While a turtle records, its outline is not empty and ends at the position of the turtle; while it does not, the outline
is empty (`Turtle.Tracks`). Turtles start that way, and no action ends it: a move adds the new position, and the outline
begins with the position and is emptied when it is closed. Turns, steering and forks leave both the position and the
outline as they are, and a restored turtle is one that was saved, so that all turtles of any history track
(`tracks_afterDeeds`).
-/

namespace Foliage

variable {K : Type} [Scalar K]

/-- The turtle records, and its outline ends where it is; or it does not record, and the outline is empty. -/
def Turtle.Tracks (t : Turtle K) : Prop :=
  t.recording = false ∧ t.outline = [] ∨
    t.recording = true ∧ t.outline ≠ [] ∧ t.outline.getLast? = some t.position

omit [Scalar K] in
theorem tracks_ofConfig (c : TurtleConfig K) : (Turtle.ofConfig c).Tracks := .inl ⟨rfl, rfl⟩

theorem tracks_advance {t : Turtle K} (h : t.Tracks) (way : Vec K) : (t.advance way).Tracks := by
  unfold Turtle.advance
  rcases h with ⟨hr, ho⟩ | ⟨hr, -, -⟩
  · left
    exact ⟨hr, by simp [hr, ho]⟩
  · right
    refine ⟨hr, ?_, ?_⟩
    · simp [hr]
    · simp [hr]

theorem tracks_act (t : Turtle K) (action : Action K) (h : t.Tracks) : (t.act action).1.Tracks := by
  cases action with
  | forward amount => exact tracks_advance h _
  | skip amount => exact tracks_advance h _
  | startPoly => exact .inr ⟨rfl, List.cons_ne_nil _ _, rfl⟩
  | endPoly => exact .inl ⟨rfl, rfl⟩
  | turn | horiz | setRadius => exact h

theorem tracks_maneuver (t : Turtle K) (m : Maneuver K) (h : t.Tracks) : (t.maneuver m).Tracks := by
  cases m with
  | operate op =>
    cases op with
    | act action => exact tracks_act t action h
    | stamp | consider => exact h
  | orthonormalize => exact h
  | headToward target =>
    obtain ⟨frame, heq⟩ := headToward_eq t target
    show (t.headToward target).2.Tracks
    rw [heq]
    exact h

theorem keeps_tracks : TurtleLike.Keeps fun t : Turtle K => t.Tracks where
  act := tracks_act
  steer f hf := by cases hf

/-- **Outlines end at the turtle.** Start with a fresh turtle and with nothing saved, and let operations, corrections of
the heading and runs of programs follow each other in any order, whether the runs succeed or fail. Then the turtle and
all saved ones either record an outline that ends where they are, or do not record and have an empty one. The same holds
of every member of a population that starts with a fresh turtle on any skeleton, and of every member of the saved ones,
when operations and runs follow each other. -/
theorem tracks_afterDeeds (c : TurtleConfig K) :
    (∀ deeds : List (Deed (Maneuver K) K),
      (Machine.afterDeeds Turtle.maneuver ⟨Turtle.ofConfig c, []⟩ deeds).All Turtle.Tracks) ∧
    ∀ (s : Skeleton K) (g : Guidance K) (deeds : List (Deed (Operation K) K)),
      (Machine.afterDeeds (fun p op => (TurtleLike.operate p op).1)
        ⟨Population.ofTurtle s g (.ofConfig c), []⟩ deeds).All fun p => ∀ m ∈ p.members, m.turtle.Tracks := by
  constructor
  · intro deeds
    refine all_afterDeeds keeps_tracks tracks_maneuver ?_ deeds
    intro t ht
    rw [List.mem_singleton.mp ht]
    exact tracks_ofConfig c
  · intro s g deeds
    have hkeeps : TurtleLike.Keeps fun p : Population K => ∀ m ∈ p.members, m.turtle.Tracks :=
      keeps_members tracks_act fun t frame stepSize h => h
    refine all_afterDeeds hkeeps (fun p op hp => keeps_operate hkeeps hp op) ?_ deeds
    intro p hp m hm
    rw [List.mem_singleton.mp hp] at hm
    rw [List.mem_singleton.mp hm]
    exact tracks_ofConfig c

end Foliage
