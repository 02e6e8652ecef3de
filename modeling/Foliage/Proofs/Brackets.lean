import Foliage.Symbol
import Mathlib.Data.List.Forall2

/-!
# Brackets

Saves and restores are the brackets of a program. `depthAt start xs i` is the depth of a stack before the symbol at
`i`, counted from `start` by the brackets alone. A program is `Balanced` when no prefix of it has more restores than
saves and the totals agree.

`Closes k n xs` is the form of this that inductions use: with `n` brackets open before it, `xs` closes all of them,
never closes one that is not open, and at no point are more than `k` open. It unfolds symbol by symbol
(`closes_cons_push`, `closes_cons_pop`, `closes_cons_plain`), is kept by concatenation (`Closes.append`), and grows by
`k` when every symbol that is no bracket is replaced by a program of nesting `k` (`Closes.replace`). A program is
balanced when it closes from zero for some `k` (`balanced_iff_closes`).
-/

namespace Foliage

variable {K : Type}

/-! ## Counting brackets -/

/-- The number of saves in a program. -/
def pushes (xs : List (Symbol K)) : Nat := xs.countP fun x => x.tag = .push

/-- The number of restores in a program. -/
def pops (xs : List (Symbol K)) : Nat := xs.countP fun x => x.tag = .pop

/-- The depth of a stack before the symbol at `i`; it is negative where more is restored than there is. -/
def depthAt (start : Nat) (xs : List (Symbol K)) (i : Nat) : Int :=
  start + pushes (xs.take i) - pops (xs.take i)

@[simp] theorem pushes_nil : pushes ([] : List (Symbol K)) = 0 := rfl

@[simp] theorem pops_nil : pops ([] : List (Symbol K)) = 0 := rfl

theorem pushes_cons (x : Symbol K) (xs : List (Symbol K)) :
    pushes (x :: xs) = pushes xs + if x.tag = .push then 1 else 0 := by
  simp [pushes, List.countP_cons]

theorem pops_cons (x : Symbol K) (xs : List (Symbol K)) :
    pops (x :: xs) = pops xs + if x.tag = .pop then 1 else 0 := by
  simp [pops, List.countP_cons]

theorem pushes_append (xs ys : List (Symbol K)) : pushes (xs ++ ys) = pushes xs + pushes ys := List.countP_append

theorem pops_append (xs ys : List (Symbol K)) : pops (xs ++ ys) = pops xs + pops ys := List.countP_append

theorem depthAt_succ (start : Nat) {xs : List (Symbol K)} {i : Nat} {x : Symbol K} (h : xs[i]? = some x) :
    (depthAt start xs (i + 1) + if x.tag = .pop then 1 else 0) =
      depthAt start xs i + if x.tag = .push then 1 else 0 := by
  have htake : xs.take (i + 1) = xs.take i ++ [x] := by rw [List.take_add_one, h, Option.toList_some]
  have hpushes : pushes (xs.take (i + 1)) = pushes (xs.take i) + if x.tag = .push then 1 else 0 := by
    simp [htake, pushes]
  have hpops : pops (xs.take (i + 1)) = pops (xs.take i) + if x.tag = .pop then 1 else 0 := by
    simp [htake, pops]
  rw [depthAt, depthAt, hpushes, hpops]
  split <;> split <;> omega

theorem depthAt_length (xs : List (Symbol K)) : depthAt 0 xs xs.length = pushes xs - pops xs := by
  rw [depthAt, List.take_length]
  omega

/-- What follows a symbol does not matter for the depth before it. -/
theorem depthAt_append (start : Nat) {xs : List (Symbol K)} {i : Nat} (hi : i ≤ xs.length) (ys : List (Symbol K)) :
    depthAt start (xs ++ ys) i = depthAt start xs i := by
  rw [depthAt, depthAt, List.take_append_of_le_length hi]

/-- No prefix restores more than it saves, and the whole saves as much as it restores. -/
structure Balanced (xs : List (Symbol K)) : Prop where
  covered : ∀ i, pops (xs.take i) ≤ pushes (xs.take i)
  closed : pushes xs = pops xs

/-! ## Closing what is open -/

/-- With `n` brackets open before it, a program closes all of them, and at most `k` are ever open. -/
structure Closes (k n : Nat) (xs : List (Symbol K)) : Prop where
  covered : ∀ i, pops (xs.take i) ≤ n + pushes (xs.take i)
  bounded : ∀ i, n + pushes (xs.take i) ≤ pops (xs.take i) + k
  closed : n + pushes xs = pops xs

theorem Closes.le {k n : Nat} {xs : List (Symbol K)} (h : Closes k n xs) : n ≤ k := by
  simpa using h.bounded 0

@[simp] theorem closes_nil {k n : Nat} : Closes k n ([] : List (Symbol K)) ↔ n = 0 := by
  constructor
  · intro h
    simpa using h.closed
  · rintro rfl
    exact ⟨by simp, by simp, rfl⟩

/-- What a program closes behind its first symbol, where `m` brackets are open instead of `n`. -/
theorem closes_cons {k m n : Nat} {x : Symbol K} {xs : List (Symbol K)}
    (hm : (m + if x.tag = .pop then 1 else 0) = n + if x.tag = .push then 1 else 0) :
    Closes k n (x :: xs) ↔ n ≤ k ∧ Closes k m xs := by
  constructor
  · intro h
    refine ⟨h.le, fun i => ?_, fun i => ?_, ?_⟩
    · have := h.covered (i + 1)
      rw [List.take_succ_cons, pops_cons, pushes_cons] at this
      omega
    · have := h.bounded (i + 1)
      rw [List.take_succ_cons, pops_cons, pushes_cons] at this
      omega
    · have := h.closed
      rw [pops_cons, pushes_cons] at this
      omega
  · rintro ⟨hn, h⟩
    refine ⟨fun i => ?_, fun i => ?_, ?_⟩
    · cases i with
      | zero => simp
      | succ i =>
        have := h.covered i
        rw [List.take_succ_cons, pops_cons, pushes_cons]
        omega
    · cases i with
      | zero => simpa using hn
      | succ i =>
        have := h.bounded i
        rw [List.take_succ_cons, pops_cons, pushes_cons]
        omega
    · have := h.closed
      rw [pops_cons, pushes_cons]
      omega

theorem closes_cons_plain {k n : Nat} {x : Symbol K} {xs : List (Symbol K)} (hx : x.tag ≠ .push)
    (hx' : x.tag ≠ .pop) : Closes k n (x :: xs) ↔ Closes k n xs := by
  rw [closes_cons (by rw [if_neg hx, if_neg hx'])]
  exact ⟨And.right, fun h => ⟨h.le, h⟩⟩

theorem closes_cons_push {k n : Nat} {x : Symbol K} {xs : List (Symbol K)} (hx : x.tag = .push) :
    Closes k n (x :: xs) ↔ Closes k (n + 1) xs := by
  rw [closes_cons (m := n + 1) (by simp [hx])]
  exact ⟨And.right, fun h => ⟨Nat.le_of_succ_le h.le, h⟩⟩

theorem closes_cons_pop {k n : Nat} {x : Symbol K} {xs : List (Symbol K)} (hx : x.tag = .pop) :
    Closes k (n + 1) (x :: xs) ↔ n < k ∧ Closes k n xs :=
  closes_cons (by simp [hx])

/-- Nothing closes what is not open. -/
theorem not_closes_cons_pop {k : Nat} {x : Symbol K} {xs : List (Symbol K)} (hx : x.tag = .pop) :
    ¬ Closes k 0 (x :: xs) := by
  intro h
  have := h.covered 1
  simp [pushes_cons, pops_cons, hx] at this

/-- Whether a program closes what is open can be decided symbol by symbol. -/
instance decidableCloses : (k n : Nat) → (xs : List (Symbol K)) → Decidable (Closes k n xs)
  | _, _, [] => decidable_of_iff _ closes_nil.symm
  | k, n, x :: xs =>
    if hpush : x.tag = .push then
      have := decidableCloses k (n + 1) xs
      decidable_of_iff _ (closes_cons_push hpush).symm
    else if hpop : x.tag = .pop then
      match n with
      | 0 => isFalse (not_closes_cons_pop hpop)
      | n + 1 =>
        have := decidableCloses k n xs
        decidable_of_iff _ (closes_cons_pop hpop).symm
    else
      have := decidableCloses k n xs
      decidable_of_iff _ (closes_cons_plain hpush hpop).symm

/-! ## Putting programs together -/

/-- A program that closes what it finds open, in front of one that closes the rest. -/
theorem Closes.append {j k m n : Nat} {xs ys : List (Symbol K)} (hx : Closes j n xs) (hy : Closes k m ys)
    (hk : j + m ≤ k) : Closes k (n + m) (xs ++ ys) := by
  induction xs generalizing n with
  | nil =>
    obtain rfl := closes_nil.mp hx
    simpa using hy
  | cons x xs ih =>
    by_cases hpush : x.tag = .push
    · rw [List.cons_append, closes_cons_push hpush, Nat.add_right_comm]
      exact ih ((closes_cons_push hpush).mp hx)
    by_cases hpop : x.tag = .pop
    · cases n with
      | zero => exact absurd hx (not_closes_cons_pop hpop)
      | succ n =>
        obtain ⟨hn, hx⟩ := (closes_cons_pop hpop).mp hx
        rw [List.cons_append, Nat.add_right_comm, closes_cons_pop hpop]
        exact ⟨by omega, ih hx⟩
    · rw [List.cons_append, closes_cons_plain hpush hpop]
      exact ih ((closes_cons_plain hpush hpop).mp hx)

/-- A program without brackets has nothing to close. -/
theorem closes_of_no_brackets {xs : List (Symbol K)} (h : ∀ x ∈ xs, x.tag ≠ .push ∧ x.tag ≠ .pop) : Closes 0 0 xs := by
  induction xs with
  | nil => exact closes_nil.mpr rfl
  | cons x xs ih =>
    obtain ⟨⟨hpush, hpop⟩, hxs⟩ := List.forall_mem_cons.mp h
    exact (closes_cons_plain hpush hpop).mpr (ih hxs)

theorem closes_flatMap {α : Type} {k : Nat} {f : α → List (Symbol K)} {as : List α} (h : ∀ a ∈ as, Closes k 0 (f a)) :
    Closes k 0 (as.flatMap f) := by
  induction as with
  | nil => exact closes_nil.mpr rfl
  | cons a as ih =>
    have ha := h a List.mem_cons_self
    exact ha.append (ih fun b hb => h b (List.mem_cons_of_mem _ hb)) (Nat.le_refl k)

/-- What replaces a symbol: a bracket stays, and anything else gives way to a program of nesting `k`. -/
def Replaces (k : Nat) (x : Symbol K) (ys : List (Symbol K)) : Prop :=
  if x.tag = .push ∨ x.tag = .pop then ys = [x] else Closes k 0 ys

/-- **Nesting under replacement**: replacing every symbol by a program of nesting `k` adds `k` to the nesting. -/
theorem Closes.replace {j k n : Nat} {xs : List (Symbol K)} {yss : List (List (Symbol K))} (h : Closes j n xs)
    (hr : List.Forall₂ (Replaces k) xs yss) : Closes (j + k) n yss.flatten := by
  induction hr generalizing n with
  | nil =>
    obtain rfl := closes_nil.mp h
    exact closes_nil.mpr rfl
  | @cons x ys xs yss hx _ ih =>
    rw [List.flatten_cons]
    by_cases hpush : x.tag = .push
    · rw [Replaces, if_pos (Or.inl hpush)] at hx
      subst hx
      rw [List.singleton_append, closes_cons_push hpush]
      exact ih ((closes_cons_push hpush).mp h)
    by_cases hpop : x.tag = .pop
    · rw [Replaces, if_pos (Or.inr hpop)] at hx
      subst hx
      cases n with
      | zero => exact absurd h (not_closes_cons_pop hpop)
      | succ n =>
        obtain ⟨hn, h⟩ := (closes_cons_pop hpop).mp h
        rw [List.singleton_append, closes_cons_pop hpop]
        exact ⟨by omega, ih h⟩
    · rw [Replaces, if_neg (by simp [hpush, hpop])] at hx
      have hn := h.le
      have := hx.append (ih ((closes_cons_plain hpush hpop).mp h)) (by omega)
      rwa [Nat.zero_add] at this

/-! ## Balanced programs -/

/-- A program closes from zero, with at most `k` brackets open, exactly when it is balanced and its depth never
exceeds `k`. -/
theorem closes_zero_iff {k : Nat} {xs : List (Symbol K)} :
    Closes k 0 xs ↔ Balanced xs ∧ ∀ i, depthAt 0 xs i ≤ k := by
  constructor
  · intro h
    refine ⟨⟨fun i => by simpa using h.covered i, by simpa using h.closed⟩, fun i => ?_⟩
    have := h.bounded i
    rw [depthAt]
    omega
  · rintro ⟨⟨hc, he⟩, hk⟩
    refine ⟨fun i => by simpa using hc i, fun i => ?_, by simpa using he⟩
    have := hk i
    rw [depthAt] at this
    omega

/-- A balanced program closes from zero for some bound on its depth. -/
theorem balanced_iff_closes {xs : List (Symbol K)} : Balanced xs ↔ ∃ k, Closes k 0 xs := by
  constructor
  · intro h
    refine ⟨xs.length, closes_zero_iff.mpr ⟨h, fun i => ?_⟩⟩
    have h₁ : pushes (xs.take i) ≤ (xs.take i).length := List.countP_le_length
    have h₂ : (xs.take i).length ≤ xs.length := List.length_take_le' i xs
    rw [depthAt]
    omega
  · rintro ⟨k, h⟩
    exact (closes_zero_iff.mp h).1

end Foliage
