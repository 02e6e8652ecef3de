import Foliage.Proofs.Turtle.RightHanded

/-!
# The way back

A turtle that turns and skips can go back the way it came: the same paces from the last to the first, each turn in the
opposite sense and each skip backward (`wayBack`). Every turn pivots about a vector of the frame that the turns before
it have moved, but leaves that vector where it is, so that the opposite turn is a turn about the same axis
(`turn_opposite`). A pace and its opposite thus leave the turtle as it was (`maneuver_back`), and the paces of a walk
and of its way back cancel from the middle outward (`maneuverAll_wayBack`). This is read over exact arithmetic, where
a frame of unit vectors keeps its axes at length one.
-/

namespace Foliage

/-- The turn in the other sense about the same axis. -/
def Turn.opposite : Turn → Turn
  | .yawLeft => .yawRight
  | .yawRight => .yawLeft
  | .pitchUp => .pitchDown
  | .pitchDown => .pitchUp
  | .rollLeft => .rollRight
  | .rollRight => .rollLeft

/-- A turn by an angle, or a move of a length that draws nothing. -/
inductive Pace (K : Type) where
  | turn (t : Turn) (angle : K)
  | skip (length : K)

namespace Pace

variable {K : Type}

/-- What a turtle does for a pace. -/
def maneuver : Pace K → Maneuver K
  | .turn t angle => .operate (.act (.turn t (some angle)))
  | .skip length => .operate (.act (.skip (some length)))

/-- The pace that leads back. -/
def back [Neg K] : Pace K → Pace K
  | .turn t angle => .turn t.opposite angle
  | .skip length => .skip (-length)

end Pace

/-- The paces that lead back along a walk: from the last to the first, each one backward. -/
def wayBack {K : Type} [Neg K] (walk : List (Pace K)) : List (Pace K) := walk.reverse.map Pace.back

open Vec

variable {f : Frame ℝ} {t : Turtle ℝ}

/-! ## One pace -/

theorem yaw_neg (h : f.RightHanded) (angle : ℝ) : (f.yaw angle).yaw (-angle) = f := by
  unfold Frame.yaw
  simp only [rotate_neg h.dot_up]

theorem pitch_neg (h : f.RightHanded) (angle : ℝ) : (f.pitch angle).pitch (-angle) = f := by
  unfold Frame.pitch
  simp only [rotate_neg h.dot_left]

theorem roll_neg (h : f.RightHanded) (angle : ℝ) : (f.roll angle).roll (-angle) = f := by
  unfold Frame.roll
  simp only [rotate_neg h.dot_direction]

/-- A turn is undone by the opposite one, by the same angle. -/
theorem turn_opposite (h : f.RightHanded) (turn : Turn) (angle : ℝ) :
    (f.turn turn angle).turn turn.opposite angle = f := by
  -- the turns to the left and downward come first with the negative angle
  have hneg : - -angle = angle := neg_neg angle
  cases turn with
  | yawRight => exact yaw_neg h angle
  | pitchUp => exact pitch_neg h angle
  | rollRight => exact roll_neg h angle
  | yawLeft =>
    have hback := yaw_neg h (-angle)
    rwa [hneg] at hback
  | pitchDown =>
    have hback := pitch_neg h (-angle)
    rwa [hneg] at hback
  | rollLeft =>
    have hback := roll_neg h (-angle)
    rwa [hneg] at hback

/-- A turn of a right-handed turtle, whether it restores its frame or not. -/
theorem rotate_eq (h : t.frame.RightHanded) (turn : Turn) (angle : ℝ) :
    t.rotate turn (some angle) = { t with frame := t.frame.turn turn angle } := by
  unfold Turtle.rotate
  simp only [Option.getD_some, (h.turn turn angle).orthonormalize_eq, ite_self]

/-- A turtle that does not record is moved, and nothing else. -/
theorem advance_eq (hrecord : t.recording = false) (way : Vec ℝ) :
    t.advance way = { t with position := t.position + way } := by
  unfold Turtle.advance
  simp only [hrecord, Bool.false_eq_true, if_false]

/-- A pace and the pace that leads back leave a turtle as it was. -/
theorem maneuver_back (h : t.frame.RightHanded) (hrecord : t.recording = false) (pace : Pace ℝ) :
    (t.maneuver pace.maneuver).maneuver pace.back.maneuver = t := by
  cases pace with
  | turn turn angle =>
    show (t.rotate turn (some angle)).rotate turn.opposite (some angle) = t
    rw [rotate_eq h, rotate_eq (h.turn turn angle), turn_opposite h]
  | skip length =>
    have hplace : t.position + t.frame.direction * length + t.frame.direction * -length = t.position := by
      ext <;> simp
    show (t.advance (t.frame.direction * length)).advance (t.frame.direction * -length) = t
    rw [advance_eq hrecord, advance_eq (by exact hrecord), hplace]

/-- A pace does not begin an outline. -/
theorem recording_maneuver (pace : Pace ℝ) : (t.maneuver pace.maneuver).recording = t.recording := by
  cases pace <;> rfl

/-! ## A walk -/

/-- **The way back.** A turtle with a right-handed frame that does not record walks any turns and skips, and back: the
same from the last to the first, left and right, up and down exchanged and the skips negated. It is then the turtle it
was, in its position, its direction, up and left and in everything else, restoring its frame after turns or not. -/
theorem maneuverAll_wayBack (h : t.frame.RightHanded) (hrecord : t.recording = false) (walk : List (Pace ℝ)) :
    t.maneuverAll ((walk ++ wayBack walk).map Pace.maneuver) = t := by
  induction walk generalizing t with
  | nil => rfl
  | cons pace walk ih =>
    -- the walk behind the first pace has been undone by its own way back when the last pace is due
    have hrest := ih (rightHanded_maneuver h pace.maneuver) ((recording_maneuver pace).trans hrecord)
    have hsplit : (pace :: walk) ++ wayBack (pace :: walk) = pace :: (walk ++ wayBack walk) ++ [pace.back] := by
      simp [wayBack]
    rw [hsplit]
    unfold Turtle.maneuverAll at hrest ⊢
    rw [List.map_append, List.map_cons, List.foldl_append, List.foldl_cons, hrest]
    exact maneuver_back h hrecord pace

/-- A walk about all three axes with a skip between the turns. -/
theorem maneuverAll_wayBack_axes :
    let t : Turtle ℝ := .ofConfig .standard
    let walk : List (Pace ℝ) := [.turn .yawLeft 1, .turn .pitchUp 2, .skip 3, .turn .rollLeft 4, .skip (-5)]
    t.frame.RightHanded ∧ t.recording = false ∧
      wayBack walk = [.skip (- -5), .turn .rollRight 4, .skip (-3), .turn .pitchDown 2, .turn .yawRight 1] ∧
      t.maneuverAll ((walk ++ wayBack walk).map Pace.maneuver) = t := by
  intro t walk
  exact ⟨rightHanded_upright, rfl, rfl, maneuverAll_wayBack rightHanded_upright rfl walk⟩

end Foliage
