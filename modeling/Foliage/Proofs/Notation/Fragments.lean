import Foliage.Proofs.Notation.Grammar

/-!
# Fragments of notation

A text that is read keeps its meaning when the text goes on. An item of the grammar stays the same item in front of any
other text, except that a symbol without an amount would take a parenthesis behind it for its own (`Item.extend`); so do
items in a row (`Reads.extend`). The text behind them is then read for itself, only further from the start, which shows
in the offset of its error and nowhere else (`parseFrom_add`). So the symbols of fragments follow each other when the
fragments do (`parse_append`).
-/

namespace Foliage.Notation

variable {K : Type} [Scalar K] [Numeral K] {cs rest back : List Char} {xs : List (Symbol K)}

/-! ## Texts that go on -/

/-- An item stays the same when the text goes on, unless with a parenthesis. -/
theorem Item.extend (h : Item cs xs rest) (hback : back.head? ≠ some '(') : Item (cs ++ back) xs (rest ++ back) := by
  cases h with
  | blank hblank => exact .blank hblank
  | bare hstands hparen =>
    refine .bare hstands ?_
    -- behind the symbol stands the rest, or what is added when there is none
    cases rest with
    | nil => exact hback
    | cons d ds => exact hparen
  | @applied c literal rest tag amount a hstands hliteral hread =>
    have happlied : Item (c :: '(' :: (literal ++ ')' :: (rest ++ back))) [⟨tag, some a⟩] (rest ++ back) :=
      .applied hstands hliteral hread
    simpa using happlied

theorem Reads.extend (h : Reads cs xs rest) (hback : back.head? ≠ some '(') : Reads (cs ++ back) xs (rest ++ back) := by
  induction h with
  | done rest => exact .done _
  | item hitem _ ih => exact .item (hitem.extend hback) ih

/-! ## Texts further from the start -/

/-- The same error in a text with more bytes in front of it. -/
def ParseError.behind (bytes : Nat) (e : ParseError) : ParseError := ⟨bytes + e.offset, e.cause⟩

/-- Where a text starts shows in the offset of its error alone. -/
theorem parseFrom_add (bytes offset : Nat) (cs : List Char) :
    parseFrom (K := K) (bytes + offset) cs = (parseFrom offset cs).mapError (ParseError.behind bytes) := by
  rcases reads_or_stuck K cs with ⟨ys, hys⟩ | ⟨ys, rest, shown, cause, hys, hstuck⟩
  · rw [parseFrom_of_reads_nil hys, parseFrom_of_reads_nil hys]
    rfl
  · obtain ⟨before, hbefore, herror⟩ := parseFrom_of_reads_stuck hys hstuck offset
    obtain ⟨before', hbefore', herror'⟩ := parseFrom_of_reads_stuck hys hstuck (bytes + offset)
    -- both errors are found behind the same characters
    obtain rfl : before' = before := by omega
    rw [herror, herror', Except.mapError, ParseError.behind, Nat.add_assoc, Nat.add_assoc, Nat.add_assoc]

/-! ## Fragments in a row -/

/-- **Fragments follow each other.** Behind a text that is read, any text that does not open a parenthesis at its
start is read as it is for itself: its symbols follow those of the first text, or reading fails for the same reason,
at an offset that counts the bytes of the first text as well. -/
theorem parse_append {a b : String} (ha : parse a = .ok xs) (hb : b.toList.head? ≠ some '(') :
    parse (a ++ b) = match parse b with
      | .ok ys => .ok (xs ++ ys)
      | .error e => .error ⟨a.utf8ByteSize + e.offset, e.cause⟩ := by
  have hreads : Reads (a.toList ++ b.toList) xs b.toList := (reads_of_parse ha).extend hb
  obtain ⟨bytes, hbytes, hparse⟩ := parseFrom_of_reads hreads
  have hsize : bytes = a.utf8ByteSize := by
    rw [byteSize_append, byteSize_toList] at hbytes
    omega
  have hrest : parseFrom (K := K) (0 + bytes) b.toList = (parse b).mapError (ParseError.behind a.utf8ByteSize) := by
    rw [Nat.add_comm, hsize, parseFrom_add]
    rfl
  rw [parse, String.toList_append, hparse, hrest]
  cases parse (K := K) b <;> rfl

/-- A fragment that ends in a letter of two bytes, before one that is read and before one that is not. -/
theorem parse_append_letter :
    let xs : List (Symbol Float) := [.ofAmount .forward 1.5, .bare .push, .bare (.nonterminal 'é')]
    let ys : List (Symbol Float) := [.bare .pop, .ofAmount (.turn .yawLeft) Scalar.pi]
    parse "F( 1.5) [é" = .ok xs ∧ parse " ]|" = .ok ys ∧ parse ("F( 1.5) [é" ++ " ]|") = .ok (xs ++ ys) ∧
      parse (K := Float) "]T(x)" = .error ⟨3, .badAmount ['x'] .malformed⟩ ∧
      parse (K := Float) ("F( 1.5) [é" ++ "]T(x)") = .error ⟨14, .badAmount ['x'] .malformed⟩ := by
  intro xs ys
  have hxs : parse "F( 1.5) [é" = .ok xs := by decide +kernel
  have hys : parse " ]|" = .ok ys := by decide +kernel
  have herror : parse (K := Float) "]T(x)" = .error ⟨3, .badAmount ['x'] .malformed⟩ := by decide +kernel
  have hread := parse_append hxs (b := " ]|") (by decide)
  have hfail := parse_append hxs (b := "]T(x)") (by decide)
  rw [hys] at hread
  rw [herror] at hfail
  exact ⟨hxs, hys, hread, herror, hfail⟩

-- Only a parenthesis at the start of the second fragment would change the first.
example : parse ("F" ++ "(2)") = .ok [(.ofAmount .forward 2.0 : Symbol Float)] := by decide +kernel

end Foliage.Notation
