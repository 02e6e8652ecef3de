import Foliage.Scalar

/-!
# Symbols

The alphabet of the grammar and of the turtle. A symbol is a tag and an optional amount: radians for a turn, a length
for a move, the new radius of the tube, a free value for a nonterminal. A symbol without an amount leaves the value to
the turtle that executes it.
-/

namespace Foliage

/-- The six ways to turn, two about each axis of the frame. -/
inductive Turn where
  | yawLeft
  | yawRight
  | pitchUp
  | pitchDown
  | rollLeft
  | rollRight
deriving Repr, DecidableEq

/-- What a symbol tells the turtle to do. -/
inductive Tag where
  /-- Draw a tube segment. -/
  | forward
  /-- Move without drawing. -/
  | skip
  /-- Rotate the frame. -/
  | turn (t : Turn)
  /-- Save the turtle. -/
  | push
  /-- Restore the turtle saved last. -/
  | pop
  /-- Set the radius of the tube. -/
  | setRadius
  /-- Begin the outline of a polygon. -/
  | startPoly
  /-- Close the outline and emit the polygon. -/
  | endPoly
  /-- Level the frame. -/
  | horiz
  /-- Steer toward the guiding skeleton. -/
  | considerData
  /-- Stamp the ornament. -/
  | ornament
  /-- A trunk segment, which is drawn like a tube segment when no rule has replaced it. -/
  | trunk
  /-- A symbol of the grammar alone. -/
  | nonterminal (name : Char)
deriving Repr, DecidableEq

def Turn.name : Turn → String
  | .yawLeft => "YawLeft"
  | .yawRight => "YawRight"
  | .pitchUp => "PitchUp"
  | .pitchDown => "PitchDown"
  | .rollLeft => "RollLeft"
  | .rollRight => "RollRight"

namespace Tag

/-- The tags that mean something to a turtle. -/
def commands : List Tag :=
  [.forward, .skip, .turn .yawLeft, .turn .yawRight, .turn .pitchUp, .turn .pitchDown, .turn .rollLeft,
    .turn .rollRight, .push, .pop, .setRadius, .startPoly, .endPoly, .horiz, .considerData, .ornament, .trunk]

def name : Tag → String
  | .forward => "Forward"
  | .skip => "Skip"
  | .turn t => t.name
  | .push => "Push"
  | .pop => "Pop"
  | .setRadius => "SetRadius"
  | .startPoly => "StartPoly"
  | .endPoly => "EndPoly"
  | .horiz => "Horiz"
  | .considerData => "ConsiderData"
  | .ornament => "Ornament"
  | .trunk => "Trunk"
  | .nonterminal c => "module '" ++ String.singleton c ++ "'"

/-- A tag without a meaning for the turtle. -/
def isNonterminal : Tag → Bool
  | .nonterminal _ => true
  | _ => false

end Tag

/-- A tag with its amount, if it has one. -/
structure Symbol (K : Type) where
  tag : Tag
  amount : Option K
deriving Repr, BEq, DecidableEq

namespace Symbol

variable {K : Type}

/-- A symbol that leaves its amount open. -/
def bare (tag : Tag) : Symbol K := ⟨tag, none⟩

/-- A symbol with an amount. -/
def ofAmount (tag : Tag) (amount : K) : Symbol K := ⟨tag, some amount⟩

/-- The amount, or `default` when it is left open. -/
def amountOr (s : Symbol K) (default : K) : K := s.amount.getD default

end Symbol

end Foliage
