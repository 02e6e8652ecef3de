import Foliage.Numeral
import Foliage.Ornament
import Foliage.Text.Blank

/-!
# Ornament files

An ornament is read from lines of words. A line `v x y z` is a vertex, with the second coordinate upward; a line
`f a b c` is a triangle, whose vertices are counted from one and may carry suffixes behind a slash. Further words and
all other lines mean nothing.

A line whose values cannot be read is reported before a triangle that names a missing vertex, wherever they stand.
-/

namespace Foliage

/-- Why an ornament cannot be read. -/
inductive OrnamentCause where
  /-- A line has fewer than three values. -/
  | missingValue
  /-- A word is not a value. -/
  | badValue (word : List Char)
  /-- A triangle names a vertex beyond the last one. -/
  | missingVertex (number count : Nat)
deriving Repr, DecidableEq

/-- Why and in which line, counted from one, an ornament cannot be read. -/
structure OrnamentError where
  line : Nat
  cause : OrnamentCause
deriving Repr, DecidableEq

def OrnamentCause.message : OrnamentCause → String
  | .missingValue => "expected three values"
  | .badValue word => "invalid value '" ++ String.ofList word ++ "'"
  | .missingVertex number count =>
    "vertex " ++ toString number ++ " referenced but only " ++ toString count ++ " exist"

def OrnamentError.message (e : OrnamentError) : String :=
  "ornament parse error on line " ++ toString e.line ++ ": " ++ e.cause.message

namespace Ornament

/-- The first of some words as a value, and the words behind it. -/
def takeValue {α : Type} (line : Nat) (value? : List Char → Option α) :
    List (List Char) → Except OrnamentError (α × List (List Char))
  | [] => .error ⟨line, .missingValue⟩
  | w :: ws =>
    match value? w with
    | some a => .ok (a, ws)
    | none => .error ⟨line, .badValue w⟩

/-- The first three of some words as values. -/
def takeThree {α : Type} (line : Nat) (value? : List Char → Option α) (ws : List (List Char)) :
    Except OrnamentError (α × α × α) := do
  let (a, ws) ← takeValue line value? ws
  let (b, ws) ← takeValue line value? ws
  let (c, _) ← takeValue line value? ws
  return (a, b, c)

/-- The digits of a count, which may stand behind a plus sign. -/
def unsigned : List Char → List Char
  | '+' :: cs => cs
  | cs => cs

/-- The position, from zero, that a word for a vertex names: a positive count of at most 64 bits before the first
slash. -/
def index? (w : List Char) : Option Nat :=
  let digits := unsigned (w.takeWhile (· ≠ '/'))
  let n := Decimal.natOfDigits digits
  if digits ≠ [] ∧ digits.all Char.isDigit ∧ 0 < n ∧ n < Nat.pow 2 64 then some (n - 1) else none

variable {K : Type}

/-- A coordinate. -/
def coordinate? [Numeral K] (w : List Char) : Option K := (Numeral.read w).toOption

/-- What a line says. -/
inductive Item (K : Type) where
  | vertex (v : Vec K)
  | triangle (t : Triangle)
  | remark

/-- What the words of a line say. -/
def item [Scalar K] [Numeral K] (scale : K) (line : Nat) (ws : List (List Char)) : Except OrnamentError (Item K) :=
  match ws with
  | ['v'] :: values => do
    let (x, y, z) ← takeThree line coordinate? values
    return .vertex ((⟨x, z, y⟩ : Vec K) * scale)
  | ['f'] :: values => do
    let (a, b, c) ← takeThree line index? values
    return .triangle ⟨a, b, c⟩
  | _ => return .remark

/-- The vertices of a file and its triangles, each with the line in which it stands. -/
structure Draft (K : Type) where
  vertices : Array (Vec K)
  triangles : Array (Nat × Triangle)

/-- The draft with what a line adds to it. -/
def Draft.add (d : Draft K) (line : Nat) : Item K → Draft K
  | .vertex v => { d with vertices := d.vertices.push v }
  | .triangle t => { d with triangles := d.triangles.push (line, t) }
  | .remark => d

/-- The draft with what some lines add to it, the first of which has the given number. -/
def readLines [Scalar K] [Numeral K] (scale : K) (line : Nat) (d : Draft K) :
    List (List Char) → Except OrnamentError (Draft K)
  | [] => .ok d
  | l :: ls =>
    match item scale line (Text.words l) with
    | .ok i => readLines scale (line + 1) (d.add line i) ls
    | .error e => .error e

/-- The first corner of a triangle that is no vertex. -/
def Draft.missing? (d : Draft K) (t : Nat × Triangle) : Option OrnamentError :=
  (t.2.corners.find? fun k => d.vertices.size ≤ k).map fun k => ⟨t.1, .missingVertex (k + 1) d.vertices.size⟩

/-- The ornament that a text describes, with its vertices scaled. It points upward. -/
def parse [Scalar K] [Numeral K] (text : String) (scale : K) : Except OrnamentError (Ornament K) :=
  match readLines scale 1 ⟨#[], #[]⟩ (Text.lines text.toList) with
  | .error e => .error e
  | .ok d =>
    match d.triangles.toList.findSome? d.missing? with
    | some e => .error e
    | none => .ok ⟨d.vertices, d.triangles.toList.map Prod.snd, .unitZ⟩

/-- Why an ornament cannot be loaded. -/
inductive LoadError where
  /-- There is no file, or it is not a text. -/
  | unreadable
  /-- The text does not describe an ornament. -/
  | malformed (e : OrnamentError)
deriving Repr, DecidableEq

/-- The ornament that the contents of a file describe; there are no contents when there is no file. -/
def load [Scalar K] [Numeral K] (contents : Option ByteArray) (scale : K) : Except LoadError (Ornament K) :=
  match contents.bind String.fromUTF8? with
  | none => .error .unreadable
  | some text => (parse text scale).mapError .malformed

end Ornament

end Foliage
