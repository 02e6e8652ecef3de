import Foliage.Numeral
import Foliage.Symbol
import Foliage.Text.Quoted

/-!
# Rules

A rule replaces a symbol of its tag by the output of its production. A set of rules keeps them in the order in which
they were declared. A deterministic set applies the first rule of a tag; a stochastic set picks one by weight, and the
weights of a tag may leave some mass over, in which case the symbol stays.

A set finds the rules of a tag through an index, which files the positions of the rules under their tags.
`RuleSet.build` accepts every deterministic set, and a stochastic set when its weights are finite, not negative, and
add up to at most one for every tag of the index.
-/

namespace Foliage

/-- How a rule is picked among those of a tag. -/
inductive Mode where
  /-- The rule declared first. -/
  | deterministic
  /-- A rule drawn by weight. -/
  | stochastic
deriving Repr, DecidableEq

/-- What replaces a symbol. -/
abbrev Production (K : Type) := Symbol K → List (Symbol K)

/-- A tag, what replaces its symbols, and a weight, which matters in stochastic sets alone. -/
structure Rule (K : Type) where
  tag : Tag
  weight : K
  production : Production K

namespace Rule

variable {K : Type}

/-- A rule whose output does not depend on the symbol. -/
def constant (tag : Tag) (weight : K) (output : List (Symbol K)) : Rule K := ⟨tag, weight, fun _ => output⟩

/-- The tag of a rule as the rule shows it. -/
def shownTag : Tag → List Char
  | .nonterminal c => "Module(".toList ++ Text.quoted c ++ [')']
  | t => t.name.toList

/-- A rule in words; its production is not shown. -/
def describe [Numeral K] (r : Rule K) : String :=
  String.ofList ("Rule \x7b tag: ".toList ++ shownTag r.tag ++ ", weight: ".toList ++ Numeral.writePointed r.weight
    ++ ", .. \x7d".toList)

end Rule

/-- Why a set of rules is refused. -/
inductive RuleError (K : Type) where
  /-- A weight is negative, infinite or undefined. -/
  | invalidWeight (tag : Tag) (weight : K)
  /-- The weights of a tag add up to more than one. -/
  | overweight (tag : Tag) (total : K)
deriving Repr, DecidableEq

def RuleError.message {K : Type} [Numeral K] : RuleError K → String
  | .invalidWeight tag weight => "invalid rule weight " ++ Numeral.text weight ++ " for " ++ tag.name
  | .overweight tag total =>
    "rule weights for " ++ tag.name ++ " sum to " ++ Numeral.text total ++ ", which exceeds 1"

/-- The positions of rules under the tags of the rules. -/
abbrev TagIndex := List (Tag × List Nat)

namespace TagIndex

/-- The positions under a tag. -/
def positions (index : TagIndex) (tag : Tag) : List Nat := (index.lookup tag).getD []

/-- The index with one more position under a tag, behind the others; a tag that is new to it comes last. -/
def file (tag : Tag) (position : Nat) : TagIndex → TagIndex
  | [] => [(tag, [position])]
  | (t, places) :: index =>
    if t = tag then (t, places ++ [position]) :: index else (t, places) :: file tag position index

/-- The index of some rules, which are filed from the first to the last. -/
def ofRules {K : Type} (rules : List (Rule K)) : TagIndex :=
  rules.zipIdx.foldl (fun index (r, i) => index.file r.tag i) []

end TagIndex

/-- Rules in the order of their declaration, with their index. -/
structure RuleSet (K : Type) where
  mode : Mode
  rules : List (Rule K)
  index : TagIndex
  index_eq : index = .ofRules rules

namespace RuleSet

variable {K : Type}

/-- Some rules with their index. -/
def ofRules (mode : Mode) (rules : List (Rule K)) : RuleSet K := ⟨mode, rules, .ofRules rules, rfl⟩

def size (s : RuleSet K) : Nat := s.rules.length

def isEmpty (s : RuleSet K) : Bool := s.rules.isEmpty

/-- The rules at some positions. -/
def rulesAt (rules : List (Rule K)) (places : List Nat) : List (Rule K) := places.filterMap fun i => rules[i]?

/-- The rules of a tag, in the order of their declaration: those at the positions that the index has for it. -/
def matching (s : RuleSet K) (tag : Tag) : List (Rule K) := rulesAt s.rules (s.index.positions tag)

variable [Scalar K]

/-- The sum of the weights of some rules, from the first to the last. It begins at the negative zero, which leaves every
double that is added to it as it is; the sum of no weights is therefore the negative zero itself. -/
def weigh (rules : List (Rule K)) : K := rules.foldl (fun sum r => sum + r.weight) (-0)

/-- The mass that the rules of a tag cover. -/
def totalWeight (s : RuleSet K) (tag : Tag) : K := weigh (s.matching tag)

/-- The first rule at which the running sum of the weights, which starts at `sum`, exceeds `draw`. -/
def pick (draw sum : K) : List (Rule K) → Option (Rule K)
  | [] => none
  | r :: rs => if draw < sum + r.weight then some r else pick draw (sum + r.weight) rs

/-- The rule that applies to a tag for a draw from the unit interval. -/
def select (s : RuleSet K) (tag : Tag) (draw : K) : Option (Rule K) :=
  match s.mode with
  | .deterministic => (s.matching tag).head?
  | .stochastic => pick draw 0 (s.matching tag)

/-- A weight that a stochastic rule may have. -/
def isWeight (w : K) : Bool := Scalar.isFinite w && !decide (w < 0)

/-- The most that the weights of a tag may add up to: one, with room for rounding. -/
def fullWeight : K := 1 + 1e-9

/-- The set of the declared rules. Of several faults of a stochastic set, a weight that is invalid comes before a tag
that is overweight, and what was declared first before the others. -/
def build (mode : Mode) (rules : List (Rule K)) : Except (RuleError K) (RuleSet K) :=
  let s : RuleSet K := .ofRules mode rules
  match mode with
  | .deterministic => .ok s
  | .stochastic =>
    match rules.find? fun r => !isWeight r.weight with
    | some r => .error (.invalidWeight r.tag r.weight)
    | none =>
      match s.index.find? fun entry => decide (fullWeight < weigh (rulesAt rules entry.2)) with
      | some entry => .error (.overweight entry.1 (weigh (rulesAt rules entry.2)))
      | none => .ok s

end RuleSet

end Foliage
