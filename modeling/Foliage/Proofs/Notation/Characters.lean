import Foliage.Notation
import Mathlib.Data.List.Basic

/-!
# The characters of the notation

A character is a blank, stands for a symbol, or has no place outside of a parenthesis. `Stands c tag amount` says that
`c` stands for `tag`, with `amount` when none is written behind it: every command has its glyph, the bar is a half turn,
and every other letter is a nonterminal. This is what is looked up (`symbol?_eq_some_iff`); no blank and no parenthesis
stands for a symbol.
-/

namespace Foliage.Notation

variable {K : Type}

/-- The characters with a meaning of their own. -/
def glyphs : List Char := '|' :: Tag.commands.map Tag.glyph

example : glyphs.length = 18 := rfl

/-- A character stands for a tag, with an amount for when none is written. -/
inductive Stands [Scalar K] : Char → Tag → Option K → Prop
  | halfTurn : Stands '|' (.turn .yawLeft) (some Scalar.pi)
  | command {tag : Tag} : tag ∈ Tag.commands → Stands tag.glyph tag none
  | letter {c : Char} : Text.isAlphabetic c → c ∉ glyphs → Stands c (.nonterminal c) none

/-! ## Classes of characters -/

theorem isBlank_of_mem_glyphs {c : Char} (h : c ∈ glyphs) : Text.isBlank c = false := by
  have hall : glyphs.all (fun c => !Text.isBlank c) := by decide
  simpa using List.all_eq_true.mp hall c h

/-- No range of letters meets one of blanks. -/
theorem not_isBlank_of_isAlphabetic {c : Char} (h : Text.isAlphabetic c) : Text.isBlank c = false := by
  have hapart : ∀ r ∈ Text.alphabeticRanges, ∀ b ∈ Text.blankRanges, r.2 < b.1 ∨ b.2 < r.1 := by decide +kernel
  simp only [Text.isAlphabetic, Text.isBlank, Text.inRanges, List.any_eq_true, List.any_eq_false, Bool.and_eq_true,
    decide_eq_true_eq] at h ⊢
  obtain ⟨r, hr, hlow, hhigh⟩ := h
  intro b hb
  have := hapart r hr b hb
  omega

/-- The letters among the glyphs. -/
theorem mem_of_isAlphabetic_of_mem_glyphs {c : Char} (hc : c ∈ glyphs) (h : Text.isAlphabetic c) :
    c ∈ ['F', 'f', 'T'] := by
  have hletters : glyphs.filter Text.isAlphabetic = ['F', 'f', 'T'] := by decide +kernel
  rw [← hletters, List.mem_filter]
  exact ⟨hc, h⟩

theorem glyph_injOn : ∀ s ∈ Tag.commands, ∀ t ∈ Tag.commands, s.glyph = t.glyph → s = t := by decide

theorem glyph_ne_bar : ∀ t ∈ Tag.commands, t.glyph ≠ '|' := by decide

theorem not_mem_glyphs_iff {c : Char} : c ∉ glyphs ↔ c ≠ '|' ∧ c ∉ Tag.commands.map Tag.glyph := by
  rw [glyphs, List.mem_cons, not_or]

theorem nonterminal_or_mem_commands (tag : Tag) : (∃ c, tag = .nonterminal c) ∨ tag ∈ Tag.commands := by
  cases tag
  case nonterminal c => exact .inl ⟨c, rfl⟩
  case turn t => cases t <;> exact .inr (by decide)
  all_goals exact .inr (by decide)

/-! ## Looking a character up -/

theorem ofGlyph?_glyph {tag : Tag} (h : tag ∈ Tag.commands) : Tag.ofGlyph? tag.glyph = some tag := by
  rw [Tag.ofGlyph?]
  cases hf : Tag.commands.find? fun t => t.glyph = tag.glyph with
  | none => simpa using List.find?_eq_none.mp hf tag h
  | some t =>
    have hglyph : t.glyph = tag.glyph := by simpa using List.find?_some hf
    rw [glyph_injOn t (List.mem_of_find?_eq_some hf) tag h hglyph]

theorem ofGlyph?_of_not_mem {c : Char} (h : c ∉ Tag.commands.map Tag.glyph) :
    Tag.ofGlyph? c = if Text.isAlphabetic c then some (.nonterminal c) else none := by
  have hf : Tag.commands.find? (fun t => t.glyph = c) = none := by
    refine List.find?_eq_none.mpr fun t ht => ?_
    simpa using fun e : t.glyph = c => h (e ▸ List.mem_map_of_mem ht)
  rw [Tag.ofGlyph?, hf]

variable [Scalar K] {c : Char} {x : Symbol K}

/-- A character is looked up as what it stands for. -/
theorem symbol?_eq_some_iff : symbol? c = some x ↔ Stands c x.tag x.amount := by
  constructor
  · intro h
    rw [symbol?] at h
    split at h
    · rename_i hbar
      obtain rfl := Option.some.inj h
      rw [hbar]
      exact .halfTurn
    · rename_i hbar
      obtain ⟨tag, htag, rfl⟩ := Option.map_eq_some_iff.mp h
      by_cases hc : c ∈ Tag.commands.map Tag.glyph
      · obtain ⟨t, ht, rfl⟩ := List.mem_map.mp hc
        obtain rfl := Option.some.inj ((ofGlyph?_glyph ht).symm.trans htag)
        exact .command ht
      · rw [ofGlyph?_of_not_mem hc] at htag
        split at htag
        · rename_i hletter
          obtain rfl := Option.some.inj htag
          exact .letter hletter (not_mem_glyphs_iff.mpr ⟨hbar, hc⟩)
        · cases htag
  · obtain ⟨tag, amount⟩ := x
    rintro (_ | h | ⟨hletter, hc⟩)
    · rfl
    · simp [symbol?, glyph_ne_bar tag h, ofGlyph?_glyph h, Symbol.bare]
    · obtain ⟨hbar, hc⟩ := not_mem_glyphs_iff.mp hc
      simp [symbol?, hbar, ofGlyph?_of_not_mem hc, hletter, Symbol.bare]

theorem symbol?_eq_none_iff : symbol? (K := K) c = none ↔ c ∉ glyphs ∧ Text.isAlphabetic c = false := by
  constructor
  · intro h
    have hnone : ∀ tag amount, ¬ Stands (K := K) c tag amount := fun tag amount hs => by
      rw [symbol?_eq_some_iff (x := ⟨tag, amount⟩) |>.mpr hs] at h
      cases h
    have hc : c ∉ glyphs := by
      intro hc
      rcases List.mem_cons.mp hc with rfl | hc
      · exact hnone _ _ .halfTurn
      · obtain ⟨tag, htag, rfl⟩ := List.mem_map.mp hc
        exact hnone _ _ (.command htag)
    exact ⟨hc, Bool.eq_false_iff.mpr fun hletter => hnone _ _ (.letter hletter hc)⟩
  · rintro ⟨hc, hletter⟩
    obtain ⟨hbar, hc⟩ := not_mem_glyphs_iff.mp hc
    simp [symbol?, hbar, ofGlyph?_of_not_mem hc, hletter]

theorem Stands.not_isBlank {tag : Tag} {amount : Option K} (h : Stands c tag amount) : Text.isBlank c = false := by
  cases h with
  | halfTurn => exact isBlank_of_mem_glyphs List.mem_cons_self
  | command htag => exact isBlank_of_mem_glyphs (List.mem_cons_of_mem _ (List.mem_map_of_mem htag))
  | letter hletter => exact not_isBlank_of_isAlphabetic hletter

theorem Stands.ne_paren {tag : Tag} {amount : Option K} (h : Stands c tag amount) : c ≠ '(' := by
  rintro rfl
  have hnone : symbol? (K := K) '(' = none := symbol?_eq_none_iff.mpr (by decide +kernel)
  rw [symbol?_eq_some_iff (x := ⟨tag, amount⟩) |>.mpr h] at hnone
  cases hnone

end Foliage.Notation
