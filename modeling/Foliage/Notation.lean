import Foliage.Numeral
import Foliage.Symbol
import Foliage.Text.Alphabetic
import Foliage.Text.Blank

/-!
# Bracketed notation

The classic notation of turtle strings, such as `T(5)[&F L]//A`. Every tag has a glyph; every letter that is no glyph
of a command stands for the nonterminal of that name; `|` stands for half a turn to the left. Blanks between symbols
are skipped. A parenthesis that follows a symbol at once holds its amount.

`Notation.parse` reads a text, `Notation.format` writes symbols. An error carries the offset in bytes at which the text
cannot be read.
-/

namespace Foliage

/-- The character that stands for a tag. -/
def Tag.glyph : Tag → Char
  | .forward => 'F'
  | .skip => 'f'
  | .turn .yawLeft => '+'
  | .turn .yawRight => '-'
  | .turn .pitchUp => '^'
  | .turn .pitchDown => '&'
  | .turn .rollLeft => '\\'
  | .turn .rollRight => '/'
  | .push => '['
  | .pop => ']'
  | .setRadius => '!'
  | .startPoly => '{'
  | .endPoly => '}'
  | .horiz => '$'
  | .considerData => '?'
  | .ornament => '*'
  | .trunk => 'T'
  | .nonterminal c => c

/-- The tag that a character stands for. -/
def Tag.ofGlyph? (c : Char) : Option Tag :=
  match Tag.commands.find? (fun t => t.glyph = c) with
  | some tag => some tag
  | none => if Text.isAlphabetic c then some (.nonterminal c) else none

namespace Notation

/-- Why a text cannot be read. -/
inductive ParseCause where
  /-- A character that stands for no symbol. -/
  | unknownSymbol (c : Char)
  /-- A parenthesis that is never closed. -/
  | unterminated
  /-- A parenthesis that holds no number. -/
  | badAmount (literal : List Char) (cause : NumeralError)
deriving Repr, DecidableEq

/-- Why and where, in bytes from the start, a text cannot be read. -/
structure ParseError where
  offset : Nat
  cause : ParseCause
deriving Repr, DecidableEq

def ParseCause.message : ParseCause → String
  | .unknownSymbol c => "unknown symbol '" ++ String.singleton c ++ "'"
  | .unterminated => "unterminated parameter list"
  | .badAmount literal cause => "bad parameter '" ++ String.ofList literal ++ "': " ++ cause.message

def ParseError.message (e : ParseError) : String :=
  "symbol parse error at byte " ++ toString e.offset ++ ": " ++ e.cause.message

variable {K : Type}

/-- The symbol that a character stands for when no amount follows it. -/
def symbol? [Scalar K] (c : Char) : Option (Symbol K) :=
  if c = '|' then some (.ofAmount (.turn .yawLeft) Scalar.pi) else (Tag.ofGlyph? c).map .bare

/-- The length of a text in bytes. -/
def byteSize : List Char → Nat
  | [] => 0
  | c :: cs => c.utf8Size + byteSize cs

/-- The text before the first closing parenthesis and the text behind it, if there is one. -/
def closing? : List Char → Option (List Char × List Char)
  | [] => none
  | c :: cs =>
    if c = ')' then some ([], cs)
    else (closing? cs).map fun p => (c :: p.1, p.2)

/-- The amount at the start of a text, if a parenthesis opens there, with its length in bytes and the rest of the text.
The offset is that of the text. -/
def amount? [Numeral K] (offset : Nat) : List Char → Except ParseError (Option K × Nat × List Char)
  | [] => .ok (none, 0, [])
  | c :: cs =>
    if c = '(' then
      match closing? cs with
      | none => .error ⟨offset, .unterminated⟩
      | some (literal, rest) =>
        match Numeral.read (Text.trim literal) with
        | .ok a => .ok (some a, byteSize literal + 2, rest)
        | .error cause => .error ⟨offset + 1, .badAmount (Text.trim literal) cause⟩
    else .ok (none, 0, c :: cs)

theorem length_of_closing? {cs literal rest : List Char} (h : closing? cs = some (literal, rest)) :
    rest.length < cs.length := by
  induction cs generalizing literal with
  | nil => simp [closing?] at h
  | cons c cs ih =>
    rw [closing?] at h
    split at h
    · obtain ⟨-, rfl⟩ := Prod.mk.inj (Option.some.inj h)
      simp
    · obtain ⟨⟨l, r⟩, hp, he⟩ := Option.map_eq_some_iff.mp h
      obtain ⟨-, rfl⟩ := Prod.mk.inj he
      exact Nat.lt_succ_of_lt (ih hp)

/-- Looking for an amount takes nothing away from a text but the amount. -/
theorem length_of_amount? [Numeral K] {offset bytes : Nat} {cs rest : List Char} {amount : Option K}
    (h : amount? offset cs = .ok (amount, bytes, rest)) : rest.length ≤ cs.length := by
  cases cs with
  | nil =>
    simp only [amount?, Except.ok.injEq, Prod.mk.injEq] at h
    simp [← h.2.2]
  | cons c cs =>
    rw [amount?] at h
    split at h
    · split at h
      · cases h
      · split at h
        · simp only [Except.ok.injEq, Prod.mk.injEq] at h
          obtain ⟨-, -, rfl⟩ := h
          have := length_of_closing? ‹_›
          simp only [List.length_cons]
          omega
        · cases h
    · simp only [Except.ok.injEq, Prod.mk.injEq] at h
      simp [← h.2.2]

/-- The symbols of a text that starts at the given offset. -/
def parseFrom [Scalar K] [Numeral K] (offset : Nat) : List Char → Except ParseError (List (Symbol K))
  | [] => .ok []
  | c :: cs =>
    let next := offset + c.utf8Size
    if Text.isBlank c then parseFrom next cs
    else match symbol? c with
      | none => .error ⟨offset, .unknownSymbol c⟩
      | some symbol =>
        match _h : amount? next cs with
        | .error e => .error e
        | .ok (amount, bytes, rest) =>
          match parseFrom (next + bytes) rest with
          | .error e => .error e
          | .ok symbols => .ok ({ symbol with amount := amount.or symbol.amount } :: symbols)
termination_by cs => cs.length
decreasing_by
  · simp
  · have := length_of_amount? _h
    simp only [List.length_cons]
    omega

/-- The symbols that a text writes. -/
def parse [Scalar K] [Numeral K] (text : String) : Except ParseError (List (Symbol K)) :=
  parseFrom 0 text.toList

/-- A symbol in writing. -/
def formatSymbol [Numeral K] (s : Symbol K) : List Char :=
  match s.amount with
  | none => [s.tag.glyph]
  | some a => s.tag.glyph :: '(' :: Numeral.write a ++ [')']

/-- Symbols in writing, one behind the other. -/
def format [Numeral K] (symbols : List (Symbol K)) : String :=
  String.ofList (symbols.flatMap formatSymbol)

end Notation

end Foliage
