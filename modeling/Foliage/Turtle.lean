import Foliage.Event
import Foliage.Frame
import Foliage.Ornament

/-!
# Turtles

A turtle is a plain value: a position, a frame and the settings of its pen. An action makes a new turtle of it and
leaves a trace of faces and events.

A move draws a tube of four quads or nothing. While the turtle records the outline of a polygon, every point that it
reaches by a move is added to it.
-/

namespace Foliage

/-- The pose and the pen with which a turtle starts. -/
structure TurtleConfig (K : Type) where
  position : Vec K
  frame : Frame K
  /-- The length of a move without an amount. -/
  stepSize : K
  /-- The angle of a turn without an amount, in radians. -/
  stepAngle : K
  /-- Half the width of the tube. -/
  radius : K
  /-- Restore the frame after every turn. -/
  renormalize : Bool
deriving Repr

/-- At the origin, heading upward, with short steps. -/
def TurtleConfig.standard {K : Type} [Scalar K] : TurtleConfig K where
  position := 0
  frame := .upright
  stepSize := 0.5
  stepAngle := Scalar.toRadians 22.5
  radius := 0.1
  renormalize := false

structure Turtle (K : Type) where
  position : Vec K
  frame : Frame K
  stepSize : K
  stepAngle : K
  radius : K
  renormalize : Bool
  /-- Moves add points to the outline. -/
  recording : Bool
  /-- The points of the polygon under construction. -/
  outline : List (Vec K)
deriving Repr, BEq, DecidableEq

/-- What an action leaves behind: the faces it drew and the events it reported, in order. -/
structure Trace (K : Type) where
  faces : Array (Face K)
  events : Array (Event K)

namespace Trace

variable {K : Type}

def none : Trace K := ⟨#[], #[]⟩

def ofFaces (faces : List (Face K)) : Trace K := ⟨faces.toArray, #[]⟩

def ofEvent (event : Event K) : Trace K := ⟨#[], #[event]⟩

def append : Trace K → Trace K → Trace K
  | ⟨faces, events⟩, t => ⟨faces ++ t.faces, events ++ t.events⟩

instance : Append (Trace K) := ⟨append⟩

@[simp] theorem faces_append (s t : Trace K) : (s ++ t).faces = s.faces ++ t.faces := by
  cases s; rfl

@[simp] theorem events_append (s t : Trace K) : (s ++ t).events = s.events ++ t.events := by
  cases s; rfl

@[simp] theorem faces_none : (none : Trace K).faces = #[] := rfl

@[simp] theorem faces_ofFaces (faces : List (Face K)) : (ofFaces faces).faces = faces.toArray := rfl

@[simp] theorem faces_ofEvent (event : Event K) : (ofEvent event).faces = #[] := rfl

end Trace

/-- What every turtle can do. An amount that is left open is taken from the turtle. -/
inductive Action (K : Type) where
  | forward (amount : Option K)
  | skip (amount : Option K)
  | turn (t : Turn) (angle : Option K)
  | startPoly
  | endPoly
  | horiz
  | setRadius (radius : K)
deriving Repr, DecidableEq

namespace Turtle

variable {K : Type} [Scalar K]

def ofConfig (c : TurtleConfig K) : Turtle K where
  position := c.position
  frame := c.frame
  stepSize := c.stepSize
  stepAngle := c.stepAngle
  radius := c.radius
  renormalize := c.renormalize
  recording := false
  outline := []

/-- The way of a move. -/
def stride (t : Turtle K) (amount : Option K) : Vec K := t.frame.direction * amount.getD t.stepSize

/-- The turtle moved along `way`; a turtle that records adds the new position to its outline. -/
def advance (t : Turtle K) (way : Vec K) : Turtle K :=
  let position := t.position + way
  { t with position, outline := if t.recording then t.outline ++ [position] else t.outline }

/-- The four quads of the tube along `way`. -/
def tube (t : Turtle K) (way : Vec K) : List (Face K) :=
  let north := t.position - t.frame.up * t.radius
  let east := t.position - t.frame.left * t.radius
  let south := t.position + t.frame.up * t.radius
  let west := t.position + t.frame.left * t.radius
  let quad := fun a b : Vec K => [a, a + way, b + way, b]
  [quad north east, quad east south, quad south west, quad west north]

/-- The turtle after a turn. -/
def rotate (t : Turtle K) (turn : Turn) (angle : Option K) : Turtle K :=
  let frame := t.frame.turn turn (angle.getD t.stepAngle)
  { t with frame := if t.renormalize then frame.orthonormalize else frame }

/-- The turtle with its outline closed. Three points make a polygon. -/
def closeOutline (t : Turtle K) : Turtle K × Trace K :=
  let points := t.outline
  let trace := if 3 ≤ points.length then .ofFaces [points] else .ofEvent (.openPolygon points.length)
  ({ t with recording := false, outline := [] }, trace)

/-- The turtle after an action, and what it leaves behind. -/
def act (t : Turtle K) : Action K → Turtle K × Trace K
  | .forward amount => (t.advance (t.stride amount), .ofFaces (t.tube (t.stride amount)))
  | .skip amount => (t.advance (t.stride amount), .none)
  | .turn turn angle => (t.rotate turn angle, .none)
  | .startPoly => ({ t with recording := true, outline := [t.position] }, .none)
  | .endPoly => t.closeOutline
  | .horiz => ({ t with frame := t.frame.level }, .none)
  | .setRadius radius => ({ t with radius }, .none)

/-- The turtle with its frame restored. -/
def orthonormalize (t : Turtle K) : Turtle K := { t with frame := t.frame.orthonormalize }

/-- The distance to a point, and the turtle headed toward it. A turtle that is at the point, or that has no direction
to it, keeps its heading. -/
def headToward (t : Turtle K) (target : Vec K) : K × Turtle K :=
  let way := target - t.position
  match way.normalize? with
  | some heading => (way.length, { t with frame := t.frame.headToward heading })
  | none => (way.length, t)

/-- The faces of a stamp at the pose of the turtle. -/
def stamp? (t : Turtle K) (s : Stamp K) : Option (List (Face K)) := s.faces? t.position t.frame.direction

end Turtle

end Foliage
