import Foliage.Numeral
import Foliage.Symbol

/-!
# Events

What the library reports while it works, beside its results. An event has a level and a wording; nothing else depends
on it.
-/

namespace Foliage

/-- How much attention an event asks for. -/
inductive Level where
  | warn
  | debug
  | trace
deriving Repr, DecidableEq

def Level.name : Level → String
  | .warn => "WARN"
  | .debug => "DEBUG"
  | .trace => "TRACE"

/-- Something worth a line in a log. -/
inductive Event (K : Type) where
  /-- A generation of a derivation took a number of symbols to another. -/
  | generation (number before after : Nat)
  /-- A leaf angle was accepted although it is close to an earlier one. -/
  | crowdedAngle (attempts : Nat) (angle : K)
  /-- An outline with too few points for a polygon was closed. -/
  | openPolygon (points : Nat)
  /-- The first symbol of a tag that the turtle cannot execute. -/
  | unresolved (tag : Tag) (index : Nat)
  /-- A program was executed to its end. -/
  | interpreted (symbols faces unresolved depth : Nat)
  /-- A member of a population arrived at a node and was replaced by one member per child. -/
  | branched (node children : Nat)
  /-- A guided plant was drawn. -/
  | guidedGrowth (members nodes : Nat)
deriving Repr, DecidableEq

namespace Event

variable {K : Type}

def level : Event K → Level
  | .generation .. | .interpreted .. | .guidedGrowth .. => .debug
  | .crowdedAngle .. | .openPolygon .. | .unresolved .. => .warn
  | .branched .. => .trace

def message [Numeral K] : Event K → String
  | .generation number before after =>
    "generation " ++ toString number ++ ": " ++ toString before ++ " -> " ++ toString after ++ " symbols"
  | .crowdedAngle attempts angle =>
    "no free leaf angle after " ++ toString attempts ++ " attempts; accepting " ++ Numeral.text angle
  | .openPolygon points =>
    "polygon closed with " ++ toString points ++ " point(s); at least 3 are needed, face skipped"
  | .unresolved tag index => "skipping unresolved " ++ tag.name ++ " at index " ++ toString index
  | .interpreted symbols faces skipped depth =>
    "interpreted " ++ toString symbols ++ " symbols: " ++ toString faces ++ " faces, " ++ toString skipped
      ++ " unresolved, max stack depth " ++ toString depth
  | .branched node children => "member at node " ++ toString node ++ " branches into " ++ toString children
  | .guidedGrowth members nodes =>
    "guided growth ended with " ++ toString members ++ " members over " ++ toString nodes ++ " skeleton nodes"

end Event

end Foliage
