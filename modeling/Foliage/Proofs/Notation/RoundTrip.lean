import Foliage.Proofs.Notation.Grammar

/-!
# Symbols that survive being written

The text of a symbol is an item of the grammar when its amount is read back and the glyph of its tag stands for that
tag (`Item.of_symbol`). The glyph of a command does, and that of a nonterminal when its name is a letter and no glyph
of a command (`stands_glyph`); the parser gives no other nonterminals (`Stands.name_letter`). A bare symbol takes
nothing from the symbol behind it, since no glyph opens a parenthesis. So these symbols, and no others, are read as
they were written (`parse_format`).
-/

namespace Foliage.Notation

variable {K : Type}

/-- The text of a scalar closes no parenthesis and is read as that scalar. -/
def ReadsBack [Numeral K] (a : K) : Prop :=
  ')' ∉ Numeral.write a ∧ Numeral.read (Text.trim (Numeral.write a)) = .ok a

variable [Scalar K] {c name : Char} {tag : Tag} {amount : Option K}

/-- The letters that are glyphs of commands are no names of nonterminals. -/
theorem stands_glyph (h : ∀ c, tag = .nonterminal c → Text.isAlphabetic c ∧ c ∉ ['F', 'f', 'T']) :
    Stands (K := K) tag.glyph tag none := by
  rcases nonterminal_or_mem_commands tag with ⟨c, rfl⟩ | htag
  · obtain ⟨hletter, hc⟩ := h c rfl
    exact .letter hletter fun hmem => hc (mem_of_isAlphabetic_of_mem_glyphs hmem hletter)
  · exact .command htag

theorem Stands.name_letter (h : Stands c (.nonterminal name) amount) :
    Text.isAlphabetic name ∧ name ∉ ['F', 'f', 'T'] := by
  generalize htag : Tag.nonterminal name = tag at h
  cases h with
  | halfTurn => cases htag
  | command hmem =>
    have hcommand : ∀ t ∈ Tag.commands, t.isNonterminal = false := by decide
    rw [← htag] at hmem
    cases hcommand _ hmem
  | letter hletter hc =>
    obtain rfl := Tag.nonterminal.inj htag
    have hletters : ['F', 'f', 'T'] ⊆ glyphs := by decide
    exact ⟨hletter, fun hmem => hc (hletters hmem)⟩

variable [Numeral K] {x : Symbol K} {xs s : List (Symbol K)} {cs rest : List Char}

/-! ## What is written is read -/

theorem Item.of_symbol (hstands : Stands (K := K) x.tag.glyph x.tag none)
    (hamount : ∀ a, x.amount = some a → ReadsBack a) (hrest : rest.head? ≠ some '(') :
    Item (formatSymbol x ++ rest) [x] rest := by
  obtain ⟨tag, amount⟩ := x
  cases amount with
  | none => exact .bare hstands hrest
  | some a =>
    obtain ⟨hclose, hread⟩ := hamount a rfl
    have hitem : Item (tag.glyph :: '(' :: (Numeral.write a ++ ')' :: rest)) [⟨tag, some a⟩] rest :=
      .applied hstands hclose hread
    simpa [formatSymbol] using hitem

/-- No text of symbols opens with a parenthesis. -/
theorem head?_flatMap_formatSymbol (h : ∀ x ∈ s, Stands (K := K) x.tag.glyph x.tag none) :
    (s.flatMap formatSymbol).head? ≠ some '(' := by
  cases s with
  | nil => simp
  | cons x s =>
    have hglyph : ((x :: s).flatMap formatSymbol).head? = some x.tag.glyph := by
      rw [List.flatMap_cons, formatSymbol]
      split <;> rfl
    rw [hglyph]
    exact fun hparen => (h x List.mem_cons_self).ne_paren (Option.some.inj hparen)

theorem reads_format (hstands : ∀ x ∈ s, Stands (K := K) x.tag.glyph x.tag none)
    (hamount : ∀ x ∈ s, ∀ a, x.amount = some a → ReadsBack a) : Reads (s.flatMap formatSymbol) s [] := by
  induction s with
  | nil => exact .done []
  | cons x s ih =>
    rw [List.forall_mem_cons] at hstands hamount
    rw [List.flatMap_cons]
    exact .item (.of_symbol hstands.1 hamount.1 (head?_flatMap_formatSymbol hstands.2)) (ih hstands.2 hamount.2)

/-! ## What is read can be written -/

theorem Reads.stands (h : Reads cs xs rest) : ∀ x ∈ xs, ∃ c amount, Stands (K := K) c x.tag amount := by
  induction h with
  | done rest => simp
  | item hitem _ ih =>
    intro x hx
    rcases List.mem_append.mp hx with hx | hx
    · cases hitem with
      | blank => cases hx
      | bare hstands | applied hstands =>
        obtain rfl := List.mem_singleton.mp hx
        exact ⟨_, _, hstands⟩
    · exact ih x hx

theorem name_letter_of_parse {text : String} (h : parse text = .ok s) :
    ∀ x ∈ s, ∀ c, x.tag = .nonterminal c → Text.isAlphabetic c ∧ c ∉ ['F', 'f', 'T'] := by
  intro x hx c htag
  obtain ⟨_, _, hstands⟩ := (reads_of_parse h).stands x hx
  rw [htag] at hstands
  exact hstands.name_letter

/-- **Symbols survive being written.** Symbols with amounts that are read back are read as they were written just when
every nonterminal among them is named by a letter other than `F`, `f` and `T`. The symbols that a text writes are so,
and are thus read again from the text that writes them anew. -/
theorem parse_format (hs : ∀ x ∈ s, ∀ a, x.amount = some a → ReadsBack a) :
    (parse (format s) = .ok s ↔
      ∀ x ∈ s, ∀ c, x.tag = .nonterminal c → Text.isAlphabetic c ∧ c ∉ ['F', 'f', 'T']) ∧
    ∀ text, parse text = .ok s → parse (K := K) (format s) = parse text := by
  have hwrite (hnames : ∀ x ∈ s, ∀ c, x.tag = .nonterminal c → Text.isAlphabetic c ∧ c ∉ ['F', 'f', 'T']) :
      parse (format s) = .ok s := by
    refine parse_of_reads ?_
    rw [format, String.toList_ofList]
    exact reads_format (fun x hx => stands_glyph (hnames x hx)) hs
  refine ⟨⟨name_letter_of_parse, hwrite⟩, fun text htext => ?_⟩
  rw [hwrite (name_letter_of_parse htext), htext]

/-- Signed, infinite and undefined amounts beside bare symbols, with a letter outside of the commands. -/
theorem parse_format_doubles :
    let s : List (Symbol Float) :=
      [.bare .forward, .ofAmount (.turn .yawLeft) 1.5, .bare .push, .ofAmount .forward (-0.1),
        .ofAmount .trunk (0.0 / 0.0), .bare (.nonterminal 'é'), .ofAmount (.nonterminal 'A') (-1.0 / 0.0), .bare .pop]
    (∀ x ∈ s, ∀ a, x.amount = some a → ReadsBack a) ∧
      format s = "F+(1.5)[F(-0.1)T(NaN)éA(-inf)]" ∧ parse (format s) = .ok s ∧
      parse "F +( 1.50) [F(-1e-1) T(nan) éA(-inf)]" = .ok s ∧
      parse (K := Float) (format s) = parse "F +( 1.50) [F(-1e-1) T(nan) éA(-inf)]" := by
  intro s
  have hs : ∀ x ∈ s, ∀ a, x.amount = some a → ReadsBack a := by
    simp only [s, List.forall_mem_cons, Symbol.bare, Symbol.ofAmount, Option.some.injEq, forall_eq', reduceCtorEq,
      false_implies, implies_true, true_and, List.not_mem_nil, and_true]
    exact ⟨⟨by decide +kernel, by decide +kernel⟩, ⟨by decide +kernel, by decide +kernel⟩,
      ⟨by decide +kernel, by decide +kernel⟩, ⟨by decide +kernel, by decide +kernel⟩⟩
  have hnames : ∀ x ∈ s, ∀ c, x.tag = .nonterminal c → Text.isAlphabetic c ∧ c ∉ ['F', 'f', 'T'] := by
    simp only [s, List.forall_mem_cons, Symbol.bare, Symbol.ofAmount, Tag.nonterminal.injEq, forall_eq', reduceCtorEq,
      false_implies, implies_true, true_and, List.not_mem_nil, and_true]
    exact ⟨by decide +kernel, by decide +kernel⟩
  have htext : parse "F +( 1.50) [F(-1e-1) T(nan) éA(-inf)]" = .ok s := by decide +kernel
  exact ⟨hs, by decide +kernel, (parse_format hs).1.mpr hnames, htext, (parse_format hs).2 _ htext⟩

end Foliage.Notation
