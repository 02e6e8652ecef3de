import Foliage.Derivation
import Foliage.Proofs.Brackets
import Foliage.Proofs.Rule.Index

/-!
# Rewriting

Whatever the draws are, a generation puts in place of every symbol the symbol itself or the output of a rule of its
tag (`RuleSet.Rewrites`), one symbol after the other (`generation_rewrites`). What all rules keep is therefore kept by a
derivation from any source of draws (`derive_rewrites`).

For brackets this reads: when no rule replaces a bracket and every output is a balanced program of nesting `k`
(`RuleSet.Nests`), each generation adds at most `k` to the nesting (`closes_derive`).
-/

namespace Foliage

variable {σ K : Type} {rules : RuleSet K}

/-- What a generation may put in place of a symbol. -/
def RuleSet.Rewrites (rules : RuleSet K) (x : Symbol K) (ys : List (Symbol K)) : Prop :=
  ys = [x] ∨ ∃ r ∈ rules.rules, r.tag = x.tag ∧ ys = r.production x

/-- A rule that replaces no bracket, and the symbols of its tag only by balanced programs of nesting `k`. -/
structure Rule.Nests (k : Nat) (r : Rule K) : Prop where
  tag : r.tag ≠ .push ∧ r.tag ≠ .pop
  output : ∀ x : Symbol K, x.tag = r.tag → Closes k 0 (r.production x)

/-- Rules that replace no bracket, and only by balanced programs of nesting `k`. -/
def RuleSet.Nests (k : Nat) (rules : RuleSet K) : Prop := ∀ r ∈ rules.rules, r.Nests k

theorem replaces_of_rewrites {k : Nat} (hrules : rules.Nests k) {x : Symbol K} {ys : List (Symbol K)}
    (h : rules.Rewrites x ys) : Replaces k x ys := by
  unfold Replaces
  rcases h with rfl | ⟨r, hr, ht, rfl⟩
  · split
    · rfl
    · rename_i hx
      obtain ⟨hpush, hpop⟩ := not_or.mp hx
      exact (closes_cons_plain hpush hpop).mpr (closes_nil.mpr rfl)
  · obtain ⟨⟨hpush, hpop⟩, hout⟩ := hrules r hr
    rw [if_neg (by rw [← ht]; exact not_or.mpr ⟨hpush, hpop⟩)]
    exact hout x ht.symm

variable [Scalar K] {draw : σ → K × σ}

open Foliage.Derivation

/-! ## One generation -/

theorem mem_of_pick {d sum : K} {rs : List (Rule K)} {r : Rule K} (h : RuleSet.pick d sum rs = some r) : r ∈ rs := by
  induction rs generalizing sum with
  | nil => cases h
  | cons r' rs ih =>
    rw [RuleSet.pick] at h
    split at h
    · rw [Option.some.inj h]
      exact List.mem_cons_self
    · exact List.mem_cons_of_mem _ (ih h)

/-- The rule that applies to a tag is one of its rules. -/
theorem mem_of_select {tag : Tag} {d : K} {r : Rule K} (h : rules.select tag d = some r) :
    r ∈ rules.rules ∧ r.tag = tag := by
  refine mem_matching.mp ?_
  unfold RuleSet.select at h
  split at h
  · exact List.mem_of_mem_head? h
  · exact mem_of_pick h

theorem replace_rewrites (d : K) (x : Symbol K) : rules.Rewrites x (replace (rules.select x.tag d) x) := by
  cases h : rules.select x.tag d with
  | none => exact .inl rfl
  | some r =>
    obtain ⟨hr, ht⟩ := mem_of_select h
    exact .inr ⟨r, hr, ht, rfl⟩

theorem successor_rewrites (s : σ) (x : Symbol K) : rules.Rewrites x (successor rules draw s x).1 := by
  unfold successor
  split
  · exact replace_rewrites 0 x
  · split
    · exact .inl rfl
    · exact replace_rewrites _ x

theorem foldl_successor (xs : List (Symbol K)) (out : Array (Symbol K)) (s : σ) :
    xs.foldl (fun (out, s) x =>
      let (ys, s) := successor rules draw s x
      (out ++ ys, s)) (out, s) =
        (out ++ (generation rules draw xs s).1, (generation rules draw xs s).2) := by
  induction xs generalizing out s with
  | nil => simp [generation]
  | cons x xs ih =>
    simp only [generation, List.foldl_cons] at ih ⊢
    rw [ih, ih ((#[] : Array (Symbol K)) ++ (successor rules draw s x).1)]
    exact Prod.ext (Array.toList_inj.mp (by simp)) rfl

@[simp] theorem generation_nil (s : σ) : generation rules draw [] s = ([], s) := rfl

/-- A generation goes on with the source that the first symbol leaves. -/
theorem generation_cons (x : Symbol K) (xs : List (Symbol K)) (s : σ) :
    generation rules draw (x :: xs) s =
      ((successor rules draw s x).1 ++ (generation rules draw xs (successor rules draw s x).2).1,
        (generation rules draw xs (successor rules draw s x).2).2) := by
  rw [generation, List.foldl_cons, foldl_successor]
  simp

/-- A generation rewrites every symbol. -/
theorem generation_rewrites (rules : RuleSet K) (draw : σ → K × σ) (xs : List (Symbol K)) (s : σ) :
    ∃ yss, List.Forall₂ rules.Rewrites xs yss ∧ (generation rules draw xs s).1 = yss.flatten := by
  induction xs generalizing s with
  | nil => exact ⟨[], .nil, rfl⟩
  | cons x xs ih =>
    obtain ⟨yss, hr, h⟩ := ih (successor rules draw s x).2
    refine ⟨(successor rules draw s x).1 :: yss, .cons (successor_rewrites s x) hr, ?_⟩
    rw [generation_cons, List.flatten_cons, h]

/-! ## All generations -/

omit [Scalar K] in
/-- Rewriting keeps a program that has no symbol with a rule. -/
theorem flatten_of_unruled {xs : List (Symbol K)} {yss : List (List (Symbol K))}
    (hxs : ∀ x ∈ xs, ∀ r ∈ rules.rules, r.tag ≠ x.tag) (h : List.Forall₂ rules.Rewrites xs yss) : yss.flatten = xs := by
  induction h with
  | nil => rfl
  | cons hx _ ih =>
    obtain ⟨hhead, htail⟩ := List.forall_mem_cons.mp hxs
    rcases hx with rfl | ⟨r, hr, ht, -⟩
    · rw [List.flatten_cons, ih htail, List.singleton_append]
    · exact absurd ht (hhead r hr)

theorem steps_rewrites {P : Nat → List (Symbol K) → Prop}
    (hstep : ∀ n xs yss, P n xs → List.Forall₂ rules.Rewrites xs yss → P (n + 1) yss.flatten) (depth number : Nat)
    {n : Nat} {d : Derivation σ K} (h : P n d.symbols) : P (n + depth) (steps rules draw depth number d).symbols := by
  induction depth generalizing n number d with
  | zero => exact h
  | succ depth ih =>
    obtain ⟨yss, hr, he⟩ := generation_rewrites rules draw d.symbols d.source
    have hnext : P (n + 1) (step rules draw number d).symbols := by
      show P (n + 1) (generation rules draw d.symbols d.source).1
      rw [he]
      exact hstep n _ _ h hr
    have := ih (number + 1) hnext
    rwa [Nat.add_assoc, Nat.add_comm 1] at this

/-- **What rewriting keeps, derivations have**, whatever the draws are. -/
theorem derive_rewrites {P : Nat → List (Symbol K) → Prop}
    (hstep : ∀ n xs yss, P n xs → List.Forall₂ rules.Rewrites xs yss → P (n + 1) yss.flatten)
    {start : List (Symbol K)} (hstart : P 0 start) (depth : Nat) (s : σ) :
    P depth (derive rules draw depth start s).symbols := by
  have hend : P (0 + depth) (derive rules draw depth start s).symbols := steps_rewrites hstep depth 1 hstart
  rwa [Nat.zero_add] at hend

/-! ## Nesting -/

/-- **Every generation adds at most its own nesting**, whatever the draws are. -/
theorem closes_derive {j k : Nat} (hrules : rules.Nests k) (depth : Nat) {start : List (Symbol K)}
    (h : Closes j 0 start) (s : σ) : Closes (j + depth * k) 0 (derive rules draw depth start s).symbols := by
  refine derive_rewrites (P := fun n xs => Closes (j + n * k) 0 xs) (fun n xs yss hxs hr => ?_) (by simpa using h)
    depth s
  have hgrown := hxs.replace (hr.imp fun _ _ => replaces_of_rewrites hrules)
  rwa [Nat.add_assoc, ← Nat.succ_mul] at hgrown

/-- Rules with outputs of nesting one make programs without brackets nest no deeper than there are generations. -/
theorem closes_derive_one (hrules : rules.Nests 1) (depth : Nat) {start : List (Symbol K)} (h : Closes 0 0 start)
    (s : σ) : Closes depth 0 (derive rules draw depth start s).symbols := by
  have hcloses : Closes (0 + depth * 1) 0 (derive rules draw depth start s).symbols := closes_derive hrules depth h s
  rwa [Nat.zero_add, Nat.mul_one] at hcloses

end Foliage
