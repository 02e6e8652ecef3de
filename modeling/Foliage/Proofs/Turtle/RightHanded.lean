import Foliage.Proofs.Interpreter.Operations
import Foliage.Proofs.Space.Exact

/-!
# Right-handed frames

Read over exact arithmetic, the frame of a turtle stays what it is meant to be: three unit vectors at right angles with
`up = direction × left` (`Frame.RightHanded`). A turn carries the whole frame along by one rotation about a vector of
it, and the shortest rotation toward a target does the same about an outer product, so that one lemma on rotations
serves them all (`Frame.RightHanded.carry`); straight behind there is no such axis, and the two side vectors that turn
around keep the frame right-handed. The corrections `orthonormalize` and `level` find nothing to correct.
-/

namespace Foliage

open Vec

/-- Three unit vectors at right angles, up being the outer product of direction and left. -/
structure Frame.RightHanded (f : Frame ℝ) : Prop where
  direction_unit : f.direction.length = 1
  up_unit : f.up.length = 1
  left_unit : f.left.length = 1
  direction_up : f.direction.dot f.up = 0
  direction_left : f.direction.dot f.left = 0
  up_left : f.up.dot f.left = 0
  up_eq : f.up = f.direction.cross f.left

/-- The frame carried along by a rotation. -/
noncomputable def Frame.carry (f : Frame ℝ) (axis : Vec ℝ) (sin cos : ℝ) : Frame ℝ :=
  ⟨f.direction.rotateBy axis sin cos, f.up.rotateBy axis sin cos, f.left.rotateBy axis sin cos⟩

variable {f : Frame ℝ}

/-- Up is determined by the other two, and its length and angles follow from theirs. -/
theorem rightHanded_iff :
    f.RightHanded ↔ f.direction.dot f.direction = 1 ∧ f.left.dot f.left = 1 ∧ f.direction.dot f.left = 0 ∧
      f.up = f.direction.cross f.left := by
  constructor
  · intro h
    exact ⟨length_eq_one_iff.mp h.direction_unit, length_eq_one_iff.mp h.left_unit, h.direction_left, h.up_eq⟩
  · rintro ⟨hd, hl, hdl, hu⟩
    refine ⟨length_eq_one_iff.mpr hd, length_eq_one_iff.mpr ?_, length_eq_one_iff.mpr hl, ?_, hdl, ?_, hu⟩
    · rw [hu, dot_cross_cross, hd, hl, hdl]
      ring
    · rw [hu, dot_cross_self_left]
    · rw [hu, dot_comm, dot_cross_self_right]

namespace Frame.RightHanded

theorem dot_direction (h : f.RightHanded) : f.direction.dot f.direction = 1 := length_eq_one_iff.mp h.direction_unit

theorem dot_up (h : f.RightHanded) : f.up.dot f.up = 1 := length_eq_one_iff.mp h.up_unit

theorem dot_left (h : f.RightHanded) : f.left.dot f.left = 1 := length_eq_one_iff.mp h.left_unit

/-! ## Nothing to correct -/

/-- Left, too, is the outer product of the other two. -/
theorem left_eq (h : f.RightHanded) : f.up.cross f.direction = f.left := by
  rw [h.up_eq, cross_cross, h.dot_direction, h.direction_left]
  ext <;> simp

theorem orthonormalize_eq (h : f.RightHanded) : f.orthonormalize = f := by
  have hplane : f.up - f.direction * f.direction.dot f.up = f.up := by
    rw [h.direction_up]
    ext <;> simp
  unfold Frame.orthonormalize
  simp only [normalizeOrZero_of_unit h.dot_direction, hplane, normalizeOrZero_of_unit h.dot_up, h.left_eq]

theorem level_eq (h : f.RightHanded) : f.level = f := by
  unfold Frame.level
  simp only [normalizeOrZero_of_unit h.dot_direction, ← h.up_eq, normalizeOrZero_of_unit h.dot_up, h.left_eq,
    normalizeOrZero_of_unit h.dot_left]

/-! ## Turns -/

/-- A rotation carries a right-handed frame to a right-handed frame. -/
theorem carry (h : f.RightHanded) {axis : Vec ℝ} {sin cos : ℝ} (haxis : axis.dot axis = 1)
    (hangle : sin * sin + cos * cos = 1) : (f.carry axis sin cos).RightHanded := by
  obtain ⟨hd, hl, hdl, hu⟩ := rightHanded_iff.mp h
  apply rightHanded_iff.mpr
  unfold Frame.carry
  simp only [dot_rotateBy haxis hangle, cross_rotateBy haxis hangle]
  exact ⟨hd, hl, hdl, congrArg (·.rotateBy axis sin cos) hu⟩

/-- A turn is the rotation of the whole frame about one of its vectors. -/
theorem turn_eq (h : f.RightHanded) (t : Turn) (angle : ℝ) :
    ∃ axis theta, axis.dot axis = 1 ∧ f.turn t angle = f.carry axis (Real.sin theta) (Real.cos theta) := by
  have hyaw : ∀ a, f.yaw a = f.carry f.up (Real.sin a) (Real.cos a) := by
    intro a
    unfold Frame.yaw Frame.carry
    rw [rotateBy_axis h.dot_up]
    rfl
  have hpitch : ∀ a, f.pitch a = f.carry f.left (Real.sin a) (Real.cos a) := by
    intro a
    unfold Frame.pitch Frame.carry
    rw [rotateBy_axis h.dot_left]
    rfl
  have hroll : ∀ a, f.roll a = f.carry f.direction (Real.sin a) (Real.cos a) := by
    intro a
    unfold Frame.roll Frame.carry
    rw [rotateBy_axis h.dot_direction]
    rfl
  cases t with
  | yawLeft => exact ⟨_, _, h.dot_up, hyaw _⟩
  | yawRight => exact ⟨_, _, h.dot_up, hyaw _⟩
  | pitchUp => exact ⟨_, _, h.dot_left, hpitch _⟩
  | pitchDown => exact ⟨_, _, h.dot_left, hpitch _⟩
  | rollLeft => exact ⟨_, _, h.dot_direction, hroll _⟩
  | rollRight => exact ⟨_, _, h.dot_direction, hroll _⟩

theorem turn (h : f.RightHanded) (t : Turn) (angle : ℝ) : (f.turn t angle).RightHanded := by
  obtain ⟨axis, theta, haxis, heq⟩ := h.turn_eq t angle
  rw [heq]
  apply h.carry haxis
  rw [← sq, ← sq, Real.sin_sq_add_cos_sq]

/-! ## Toward a target -/

/-- Off the line of the heading, the frame is carried along by the shortest rotation. -/
theorem headToward_of_axis (h : f.RightHanded) {target axis : Vec ℝ} (ht : target.dot target = 1)
    (haxis : (f.direction.cross target).normalize? = some axis) :
    f.headToward target = f.carry axis (f.direction.cross target).length (f.direction.dot target) := by
  -- the side vectors are normalized once more, but carried along they still have length one
  have hcarry := h.carry (of_normalize? haxis).1 (arc_angle h.dot_direction ht)
  have hu := normalizeOrZero_of_unit hcarry.dot_up
  have hl := normalizeOrZero_of_unit hcarry.dot_left
  unfold Frame.carry at hu hl
  unfold Frame.headToward Frame.carry
  simp only [normalizeOrZero_of_unit h.dot_direction, haxis, clamp_dot h.dot_direction ht,
    rotateBy_arc h.dot_direction haxis, hu, hl]

/-- A half turn about up. -/
theorem halfTurn (h : f.RightHanded) : Frame.RightHanded ⟨-f.direction, f.up, -f.left⟩ := by
  obtain ⟨hd, hl, hdl, hu⟩ := rightHanded_iff.mp h
  apply rightHanded_iff.mpr
  simp only [neg_dot_neg, neg_cross_neg]
  exact ⟨hd, hl, hdl, hu⟩

/-- On the line of the heading, the target is straight ahead or straight behind. -/
theorem headToward_of_line (h : f.RightHanded) {target : Vec ℝ} (ht : target.dot target = 1)
    (hline : f.direction.cross target = 0) :
    f.headToward target = f ∨ f.headToward target = ⟨-f.direction, f.up, -f.left⟩ := by
  have hmultiple : target = f.direction * f.direction.dot target := by
    have hback := cross_cross f.direction target
    rw [hline, h.dot_direction] at hback
    have hx := congrArg Vec.x hback
    have hy := congrArg Vec.y hback
    have hz := congrArg Vec.z hback
    simp only [cross_x, cross_y, cross_z, zero_x, zero_y, zero_z, sub_x, sub_y, sub_z, mul_x, mul_y, mul_z] at hx hy hz
    ext <;> simp only [mul_x, mul_y, mul_z] <;> linarith
  have hsquare : f.direction.dot target * f.direction.dot target = 1 := by
    have hangle := arc_angle h.dot_direction ht
    rw [length_mul_self, hline] at hangle
    simpa [dot] using hangle
  unfold Frame.headToward
  simp only [normalizeOrZero_of_unit h.dot_direction, hline, normalize?_eq_none_iff.mpr, clamp_dot h.dot_direction ht]
  rcases mul_self_eq_one_iff.mp hsquare with hcos | hcos
  · left
    have htarget : target = f.direction := by
      rw [hmultiple, hcos]
      ext <;> simp
    rw [if_neg (by linarith), htarget]
  · right
    have htarget : target = -f.direction := by
      rw [hmultiple, hcos]
      ext <;> simp
    rw [if_pos (by linarith), htarget]

theorem headToward (h : f.RightHanded) {target : Vec ℝ} (ht : target.dot target = 1) :
    (f.headToward target).RightHanded := by
  cases haxis : (f.direction.cross target).normalize? with
  | some axis =>
    rw [h.headToward_of_axis ht haxis]
    exact h.carry (of_normalize? haxis).1 (arc_angle h.dot_direction ht)
  | none =>
    rcases h.headToward_of_line ht (normalize?_eq_none_iff.mp haxis) with heq | heq
    · rwa [heq]
    · rw [heq]
      exact h.halfTurn

end Frame.RightHanded

/-! ## Turtles -/

theorem rightHanded_upright : (Frame.upright : Frame ℝ).RightHanded := by
  apply rightHanded_iff.mpr
  unfold Frame.upright
  refine ⟨?_, ?_, ?_, ?_⟩
  · simp [unitZ, dot]
  · simp [unitX, dot]
  · simp [unitZ, unitX, dot]
  · ext <;> simp [unitZ, unitY, unitX]

theorem rightHanded_act {t : Turtle ℝ} (h : t.frame.RightHanded) (action : Action ℝ) :
    (t.act action).1.frame.RightHanded := by
  cases action with
  | forward amount => exact h
  | skip amount => exact h
  | turn turn angle =>
    have hturn := h.turn turn (angle.getD t.stepAngle)
    show Frame.RightHanded (if t.renormalize then _ else _)
    split
    · rwa [hturn.orthonormalize_eq]
    · exact hturn
  | startPoly => exact h
  | endPoly => exact h
  | horiz =>
    show t.frame.level.RightHanded
    rwa [h.level_eq]
  | setRadius radius => exact h

/-- One maneuver. -/
theorem rightHanded_maneuver {t : Turtle ℝ} (h : t.frame.RightHanded) (m : Maneuver ℝ) :
    (t.maneuver m).frame.RightHanded := by
  cases m with
  | operate op =>
    cases op with
    | act action => exact rightHanded_act h action
    | stamp s => exact h
    | consider => exact h
  | orthonormalize =>
    show t.frame.orthonormalize.RightHanded
    rwa [h.orthonormalize_eq]
  | headToward target =>
    show (t.headToward target).2.frame.RightHanded
    unfold Turtle.headToward
    cases hway : (target - t.position).normalize? with
    | none => simpa only [hway] using h
    | some heading => simpa only [hway] using h.headToward (of_normalize? hway).1

theorem rightHanded_maneuverAll {t : Turtle ℝ} (h : t.frame.RightHanded) (ms : List (Maneuver ℝ)) :
    (t.maneuverAll ms).frame.RightHanded := by
  induction ms generalizing t with
  | nil => exact h
  | cons m ms ih => exact ih (rightHanded_maneuver h m)

/-- **The frame of a turtle stays right-handed** behind every maneuver of any sequence: turns by any angles, moves,
levelling, orthonormalization, and heading toward any targets, whether the turtle restores its frame after turns or not.
Levelling and orthonormalization leave a turtle with such a frame as it is. -/
theorem rightHanded_maneuvers {t : Turtle ℝ} (h : t.frame.RightHanded) (ms : List (Maneuver ℝ)) :
    (∀ i, (t.maneuverAll (ms.take i)).frame.RightHanded) ∧ (t.act .horiz).1 = t ∧ t.orthonormalize = t := by
  refine ⟨fun i => rightHanded_maneuverAll h _, ?_, ?_⟩
  · show { t with frame := t.frame.level } = t
    rw [h.level_eq]
  · show { t with frame := t.frame.orthonormalize } = t
    rw [h.orthonormalize_eq]

/-- A turtle that restores its frame pitches, yaws, and heads for a point straight behind it. -/
theorem rightHanded_maneuvers_behind :
    let t : Turtle ℝ := .ofConfig { TurtleConfig.standard with renormalize := true }
    let ms : List (Maneuver ℝ) :=
      [.operate (.act (.turn .pitchUp none)), .orthonormalize, .operate (.act (.turn .yawLeft (some 2))),
        .operate (.act (.forward none)), .headToward 0]
    t.frame.RightHanded ∧ (t.maneuverAll ms).frame.RightHanded := by
  intro t ms
  exact ⟨rightHanded_upright, (rightHanded_maneuvers rightHanded_upright ms).1 5⟩

end Foliage
