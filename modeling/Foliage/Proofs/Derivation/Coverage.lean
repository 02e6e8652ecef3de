import Foliage.Proofs.Derivation.Draws
import Foliage.Proofs.Rule.Acceptance

/-!
# Generations that keep no bud

When the rules of every tag cover a draw (`RuleSet.Covers`), a generation with this draw applies a rule wherever there
is one. `rules.Yields xs ys` says that `ys` can come of `xs` in such a generation: every symbol that has rules gives way
to the output of one of them, and the others stay (`RuleSet.Applies`). A deterministic set covers everything
(`covers_of_deterministic`), and a stochastic one the draws that are below the sum of the weights of every tag
(`covers_of_lt`).

What every yield takes from the `n`-th to the next generation, a derivation has from the start on (`derive_yields`). A
count that each symbol of a kind raises by the same grows with the number of these symbols (`countP_yields`).
-/

namespace Foliage

variable {σ K : Type}

namespace RuleSet

/-- What takes the place of a symbol where a rule applies if there is one: the output of a rule of its tag, or the
symbol itself when there is none. -/
def Applies (rules : RuleSet K) (x : Symbol K) (ys : List (Symbol K)) : Prop :=
  (rules.matching x.tag = [] ∧ ys = [x]) ∨ ∃ r ∈ rules.matching x.tag, ys = r.production x

/-- What can come of a program in a generation in which a rule applies to every symbol that has one. -/
inductive Yields (rules : RuleSet K) : List (Symbol K) → List (Symbol K) → Prop
  | nil : Yields rules [] []
  | cons {x : Symbol K} {xs ys zs : List (Symbol K)} :
      rules.Applies x ys → Yields rules xs zs → Yields rules (x :: xs) (ys ++ zs)

/-- For every tag that has rules, one of them applies for a draw. -/
def Covers [Scalar K] (rules : RuleSet K) (d : K) : Prop :=
  ∀ tag, rules.matching tag ≠ [] → (rules.select tag d).isSome

end RuleSet

variable {rules : RuleSet K}

open RuleSet

/-! ## What programs yield -/

@[simp] theorem yields_nil_iff {zs : List (Symbol K)} : rules.Yields [] zs ↔ zs = [] := by
  constructor
  · rintro ⟨⟩
    rfl
  · rintro rfl
    exact .nil

theorem yields_cons_iff {x : Symbol K} {xs zs : List (Symbol K)} :
    rules.Yields (x :: xs) zs ↔ ∃ ys ws, rules.Applies x ys ∧ rules.Yields xs ws ∧ zs = ys ++ ws := by
  constructor
  · rintro (_ | ⟨hx, h⟩)
    exact ⟨_, _, hx, h, rfl⟩
  · rintro ⟨ys, ws, hx, h, rfl⟩
    exact .cons hx h

theorem yields_append_iff {xs ys zs : List (Symbol K)} :
    rules.Yields (xs ++ ys) zs ↔ ∃ us vs, rules.Yields xs us ∧ rules.Yields ys vs ∧ zs = us ++ vs := by
  induction xs generalizing zs with
  | nil => simp
  | cons x xs ih =>
    rw [List.cons_append, yields_cons_iff]
    constructor
    · rintro ⟨os, ws, hx, h, rfl⟩
      obtain ⟨us, vs, hus, hvs, rfl⟩ := ih.mp h
      exact ⟨os ++ us, vs, .cons hx hus, hvs, (List.append_assoc ..).symm⟩
    · rintro ⟨us, vs, hus, hvs, rfl⟩
      obtain ⟨os, ws, hx, h, rfl⟩ := yields_cons_iff.mp hus
      exact ⟨os, ws ++ vs, hx, ih.mpr ⟨ws, vs, h, hvs, rfl⟩, List.append_assoc ..⟩

theorem applies_of_not_governs {x : Symbol K} {ys : List (Symbol K)} (hx : rules.matching x.tag = []) :
    rules.Applies x ys ↔ ys = [x] := by
  simp [Applies, hx]

theorem applies_of_single {x : Symbol K} {r : Rule K} {ys : List (Symbol K)} (hx : rules.matching x.tag = [r]) :
    rules.Applies x ys ↔ ys = r.production x := by
  simp [Applies, hx]

/-- A program without a symbol that has rules stays as it is. -/
theorem yields_kept_iff {xs zs : List (Symbol K)} (h : ∀ x ∈ xs, rules.matching x.tag = []) :
    rules.Yields xs zs ↔ zs = xs := by
  induction xs generalizing zs with
  | nil => exact yields_nil_iff
  | cons x xs ih =>
    obtain ⟨hx, hxs⟩ := List.forall_mem_cons.mp h
    simp only [yields_cons_iff, applies_of_not_governs hx, ih hxs]
    constructor
    · rintro ⟨_, _, rfl, rfl, rfl⟩
      rfl
    · rintro rfl
      exact ⟨[x], xs, rfl, rfl, rfl⟩

theorem yields_singleton_iff {x : Symbol K} {zs : List (Symbol K)} : rules.Yields [x] zs ↔ rules.Applies x zs := by
  simp [yields_cons_iff]

/-- A row of equal symbols with a symbol between them that stays. When each of them is split in two halves with the same
symbol between, the row doubles. -/
theorem yields_intersperse {x y link : Symbol K} (hx : ∀ ys, rules.Applies x ys → ys = [y, link, y])
    (hlink : rules.matching link.tag = []) {n : Nat} {zs : List (Symbol K)}
    (h : rules.Yields ((List.replicate n x).intersperse link) zs) :
    zs = (List.replicate (2 * n) y).intersperse link := by
  induction n generalizing zs with
  | zero => exact yields_nil_iff.mp h
  | succ n ih =>
    cases n with
    | zero =>
      rw [hx zs (yields_singleton_iff.mp h)]
      rfl
    | succ n =>
      -- from two on, the row is one symbol and a link in front of a shorter row
      rw [List.replicate_succ, List.replicate_succ, List.intersperse_cons_cons, ← List.replicate_succ] at h
      obtain ⟨ys, ws, hys, hws, rfl⟩ := yields_cons_iff.mp h
      obtain ⟨vs, us, hvs, hus, rfl⟩ := yields_cons_iff.mp hws
      rw [hx ys hys, (applies_of_not_governs hlink).mp hvs, ih hus]
      rfl

/-- What every replacement brings in, a whole yield consists of. -/
theorem forall_mem_of_yields {P : Symbol K → Prop} {xs zs : List (Symbol K)} (h : rules.Yields xs zs)
    (happly : ∀ x ys, P x → rules.Applies x ys → ∀ y ∈ ys, P y) (hxs : ∀ x ∈ xs, P x) : ∀ z ∈ zs, P z := by
  induction h with
  | nil => exact hxs
  | cons hx _ ih =>
    obtain ⟨hp, hxs⟩ := List.forall_mem_cons.mp hxs
    exact List.forall_mem_append.mpr ⟨happly _ _ hp hx, ih hxs⟩

/-- When every replacement counts `c` more for a symbol of the kind `q`, and as much as before for the others, a yield
counts `c` more for each symbol of this kind. -/
theorem countP_yields {p q : Symbol K → Bool} {c : Nat} {xs zs : List (Symbol K)} (h : rules.Yields xs zs)
    (happly : ∀ x ∈ xs, ∀ ys, rules.Applies x ys → ys.countP p = [x].countP p + c * [x].countP q) :
    zs.countP p = xs.countP p + c * xs.countP q := by
  induction h with
  | nil => rfl
  | @cons x xs ys zs hx _ ih =>
    obtain ⟨hhead, htail⟩ := List.forall_mem_cons.mp happly
    rw [List.countP_append, hhead ys hx, ih htail, ← List.singleton_append (l := xs), List.countP_append,
      List.countP_append, Nat.mul_add]
    omega

/-! ## Covered draws -/

variable [Scalar K] {draw : σ → K × σ}

open Foliage.Derivation

theorem covers_of_deterministic (h : rules.mode = .deterministic) (d : K) : rules.Covers d := by
  intro tag htag
  rw [select_of_deterministic h]
  exact List.isSome_head?.mpr htag

/-- A draw below the sum of the weights picks a rule. -/
theorem isSome_pick {d sum : K} {rs : List (Rule K)} (hrs : rs ≠ [])
    (h : d < rs.foldl (fun sum r => sum + r.weight) sum) : (RuleSet.pick d sum rs).isSome := by
  induction rs generalizing sum with
  | nil => exact absurd rfl hrs
  | cons r rs ih =>
    rw [RuleSet.pick]
    split
    · rfl
    · rename_i hr
      cases rs with
      -- the last running sum is that of all weights
      | nil => exact absurd h hr
      | cons r' rs => exact ih (List.cons_ne_nil r' rs) h

/-- A draw below the sum of the weights of every tag that has rules is covered. -/
theorem covers_of_lt (hmode : rules.mode = .stochastic) {d : K}
    (h : ∀ tag, rules.matching tag ≠ [] → d < (rules.matching tag).foldl (fun sum r => sum + r.weight) 0) :
    rules.Covers d := by
  intro tag htag
  simp only [RuleSet.select, hmode]
  exact isSome_pick htag (h tag htag)

theorem applies_rewriteOne {d : K} (h : rules.Covers d) (x : Symbol K) : rules.Applies x (rules.rewriteOne d x) := by
  unfold RuleSet.rewriteOne RuleSet.governs
  cases hx : rules.matching x.tag with
  | nil => exact .inl ⟨hx, rfl⟩
  | cons r rs =>
    obtain ⟨r', hr'⟩ := Option.isSome_iff_exists.mp (h x.tag (by simp [hx]))
    obtain ⟨hmem, htag⟩ := mem_of_select hr'
    exact .inr ⟨r', mem_matching.mpr ⟨hmem, htag⟩, by simp [hr', replace]⟩

theorem yields_rewriteBy {draws : Nat → K} (h : ∀ n, rules.Covers (draws n)) (xs : List (Symbol K)) :
    rules.Yields xs (rules.rewriteBy draws xs) := by
  induction xs generalizing draws with
  | nil => exact .nil
  | cons x xs ih =>
    rw [rewriteBy_cons]
    exact .cons (applies_rewriteOne (h 0) x) (ih fun n => h _)

/-- **What yields keep, derivations have.** -/
theorem derive_yields {s : σ} (h : ∀ n, rules.Covers (drawAt draw s n)) {P : Nat → List (Symbol K) → Prop}
    {start : List (Symbol K)} (hstart : P 0 start) (hstep : ∀ n xs ys, P n xs → rules.Yields xs ys → P (n + 1) ys)
    (depth : Nat) : P depth (derive rules draw depth start s).symbols := by
  induction depth with
  | zero => exact hstart
  | succ depth ih =>
    refine hstep depth _ _ ih ?_
    rw [symbols_derive_succ]
    exact yields_rewriteBy (fun n => h _) _

end Foliage
