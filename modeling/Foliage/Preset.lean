import Foliage.Derivation
import Foliage.Interpreter
import Foliage.Notation

/-!
# Presets

A preset is a grammar together with the turtle that draws it; a guided preset also has a skeleton along which a
population of such turtles grows. The presets of this library are under `Foliage.Preset`.
-/

namespace Foliage

/-- A grammar and its turtle. -/
structure Preset (K : Type) where
  grammar : Grammar K
  turtle : TurtleConfig K

/-- A grammar, its turtle, and the skeleton that its population follows. -/
structure GuidedPreset (K : Type) where
  grammar : Grammar K
  turtle : TurtleConfig K
  guidance : Guidance K
  skeleton : Skeleton K

/-- Why a preset cannot be built. -/
inductive PresetError (K : Type) where
  /-- The output of a rule cannot be read. -/
  | unreadable (cause : Notation.ParseError)
  /-- The rules are refused. -/
  | refused (cause : RuleError K)
deriving Repr, DecidableEq

def PresetError.message {K : Type} [Numeral K] : PresetError K → String
  | .unreadable cause => cause.message
  | .refused cause => cause.message

/-- A preset that was built with random draws: the preset, the source after them, and the events on the way. -/
structure Built (α σ K : Type) where
  preset : Except (PresetError K) α
  source : σ
  events : Array (Event K)

/-- A plant: the symbols from which it was drawn, the drawing, the source of randomness afterwards, and the events on
the way. -/
structure Plant (τ σ K : Type) where
  symbols : List (Symbol K)
  drawing : Except RunError (Drawing τ K)
  source : σ
  events : Array (Event K)

variable {σ K : Type} [RandomSource σ] [Scalar K]

/-- The plant that a grammar describes, drawn with the given turtle. -/
def Grammar.grow {τ : Type} [TurtleLike τ K] (g : Grammar K) (it : Interpreter K) (turtle : τ) (s : σ) :
    Plant τ σ K :=
  let derivation := g.derive s
  let (drawing, events) := it.draw derivation.symbols turtle
  ⟨derivation.symbols, drawing, derivation.source, derivation.events ++ events⟩

/-- A plant of the preset. -/
def Preset.generate (p : Preset K) (it : Interpreter K) (s : σ) : Plant (Turtle K) σ K :=
  p.grammar.grow it (.ofConfig p.turtle) s

/-- The population that draws the preset. -/
def GuidedPreset.population (p : GuidedPreset K) : Population K :=
  .ofTurtle p.skeleton p.guidance (.ofConfig p.turtle)

/-- A plant of the preset. -/
def GuidedPreset.generate (p : GuidedPreset K) (it : Interpreter K) (s : σ) : Plant (Population K) σ K :=
  let plant := p.grammar.grow it p.population s
  match plant.drawing with
  | .ok drawing =>
    { plant with events := plant.events.push (.guidedGrowth drawing.turtle.size p.skeleton.size) }
  | .error _ => plant

/-- The standard turtle with the pen of a preset; the angle is in degrees. -/
def TurtleConfig.ofPen {K : Type} [Scalar K] (stepSize stepAngle radius : K) : TurtleConfig K :=
  { TurtleConfig.standard with stepSize, stepAngle := Scalar.toRadians stepAngle, radius }

namespace Preset

variable {K : Type}

/-- A rule whose output is written in notation. -/
def noted [Scalar K] [Numeral K] (tag : Tag) (weight : K) (output : String) : Except Notation.ParseError (Rule K) :=
  (Notation.parse output).map (.constant tag weight)

/-- The set of some rules, if they can be read and are accepted. -/
def ruleSet [Scalar K] (mode : Mode) (rules : Except Notation.ParseError (List (Rule K))) :
    Except (PresetError K) (RuleSet K) :=
  match rules with
  | .error cause => .error (.unreadable cause)
  | .ok rules =>
    match RuleSet.build mode rules with
    | .error cause => .error (.refused cause)
    | .ok s => .ok s

/-- A side branch: the turtle returns to where it began. -/
def branch (body : List (Symbol K)) : List (Symbol K) := .bare .push :: body ++ [.bare .pop]

/-- A nonterminal without an amount. -/
def bud (name : Char) : Symbol K := .bare (.nonterminal name)

end Preset

end Foliage
