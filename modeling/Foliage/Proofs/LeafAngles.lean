import Foliage.LeafAngles
import Foliage.Proofs.Derivation.Draws
import Foliage.Proofs.Double.Finite

/-!
# The choice of leaf angles

The candidates for the angles of a whorl are the draws of the source in their order. Every angle takes the candidates
behind those of the angle before it, and is the last of them: `Settles` tells how it is chosen from its own candidates,
for one angle by induction on the attempts that are left (`pick_eq`). `Spread` puts the groups of candidates together;
each further angle adds one group (`Spread.extend`), so that it holds after any number of angles (`exists_spread`).

An angle that is not crowded is not within the tolerance of an earlier one. For doubles that means that it is further
away (`generate_angles`), as the difference of two draws is never undefined.
-/

namespace Foliage.LeafAngles

variable {σ K : Type}

/-! ## Candidates -/

/-- The first draws of a source. -/
def firstDraws (draw : σ → K × σ) (s : σ) (n : Nat) : List K := (List.range n).map (drawAt draw s)

theorem firstDraws_add (draw : σ → K × σ) (s : σ) (m n : Nat) :
    firstDraws draw s (m + n) = firstDraws draw s m ++ firstDraws draw (sourceAfter draw s m) n := by
  rw [firstDraws, List.range_add, List.map_append, List.map_map, firstDraws, firstDraws, drawAt_sourceAfter]
  rfl

theorem length_firstDraws (draw : σ → K × σ) (s : σ) (n : Nat) : (firstDraws draw s n).length = n := by
  rw [firstDraws, List.length_map, List.length_range]

variable [Scalar K]

/-- An angle is within the tolerance of one of those taken. -/
def Crowded (tolerance : K) (taken : List K) (angle : K) : Prop :=
  ∃ a ∈ taken, Scalar.abs (a - angle) ≤ tolerance

instance (tolerance : K) (taken : List K) (angle : K) : Decidable (Crowded tolerance taken angle) :=
  inferInstanceAs (Decidable (∃ a ∈ taken, Scalar.abs (a - angle) ≤ tolerance))

/-- How an angle is chosen from its candidates: it is the last of them, and all the others are crowded. There are no
more candidates than attempts, and as many when the angle itself is crowded. -/
structure Settles (tolerance : K) (attempts : Nat) (taken candidates : List K) (angle : K) : Prop where
  accepted : candidates.getLast? = some angle
  rejected : ∀ c ∈ candidates.dropLast, Crowded tolerance taken c
  length_le : candidates.length ≤ attempts
  exhausted : Crowded tolerance taken angle → candidates.length = attempts

/-- The angles that are crowded by those in front of them. -/
def crowdedAmong (tolerance : K) (angles : List K) : List K :=
  (angles.zipIdx.filter fun p => decide (Crowded tolerance (angles.take p.2) p.1)).map Prod.fst

section Choice

variable {tolerance : K} {taken candidates : List K} {attempts : Nat} {angle c : K}

theorem Settles.pos (h : Settles tolerance attempts taken candidates angle) : 0 < candidates.length :=
  List.length_pos_of_mem (List.mem_of_getLast? h.accepted)

/-- The first candidate is accepted if it is the only one or not crowded. -/
theorem Settles.first (hpos : 0 < attempts) (h : Crowded tolerance taken angle → attempts = 1) :
    Settles tolerance attempts taken [angle] angle where
  accepted := rfl
  rejected _ hc := nomatch hc
  length_le := hpos
  exhausted hcrowded := (h hcrowded).symm

/-- A crowded candidate takes one attempt more. -/
theorem Settles.cons (h : Settles tolerance attempts taken candidates angle) (hc : Crowded tolerance taken c) :
    Settles tolerance (attempts + 1) taken (c :: candidates) angle where
  accepted := by rw [List.getLast?_cons, h.accepted]; rfl
  rejected := by
    rw [List.dropLast_cons_of_ne_nil (List.ne_nil_of_length_pos h.pos)]
    exact List.forall_mem_cons.mpr ⟨hc, h.rejected⟩
  length_le := Nat.succ_le_succ h.length_le
  exhausted hcrowded := congrArg (· + 1) (h.exhausted hcrowded)

theorem crowdedAmong_concat (tolerance : K) (angles : List K) (angle : K) :
    crowdedAmong tolerance (angles ++ [angle]) =
      crowdedAmong tolerance angles ++ if Crowded tolerance angles angle then [angle] else [] := by
  have hfront : (angles.zipIdx.filter fun p => decide (Crowded tolerance ((angles ++ [angle]).take p.2) p.1)) =
      angles.zipIdx.filter fun p => decide (Crowded tolerance (angles.take p.2) p.1) := by
    refine List.filter_congr fun p hp => ?_
    rw [List.take_append_of_le_length (Nat.le_of_lt (by simpa using List.snd_lt_of_mem_zipIdx hp))]
  rw [crowdedAmong, List.zipIdx_append, List.filter_append, hfront, List.map_append]
  refine congrArg (crowdedAmong tolerance angles ++ ·) ?_
  by_cases h : Crowded tolerance angles angle <;> simp [h]

end Choice

theorem crowded_eq (tolerance : K) (taken : Array K) (angle : K) :
    crowded tolerance taken angle = decide (Crowded tolerance taken.toList angle) := by
  rw [crowded, ← Array.any_toList, Bool.eq_iff_iff, List.any_eq_true, decide_eq_true_iff]
  simp only [decide_eq_true_iff, Crowded]

variable [RandomSource σ]

/-- There are as many angles as asked for. -/
theorem size_generate (tolerance : K) (count : Nat) (s : σ) :
    (generate tolerance count s).angles.size = count := by
  induction count with
  | zero => rfl
  | succ count ih => rw [generate, extend, Array.size_push, ih]

/-! ## One angle -/

theorem pick_zero (tolerance : K) (taken : Array K) (s : σ) :
    pick tolerance taken 0 s =
      let (angle, s') := Random.below Scalar.tau s
      (angle, decide (Crowded tolerance taken.toList angle), s') := by
  simp only [pick, crowded_eq]

theorem pick_succ (tolerance : K) (taken : Array K) (more : Nat) (s : σ) :
    pick tolerance taken (more + 1) s =
      let (angle, s') := Random.below Scalar.tau s
      if Crowded tolerance taken.toList angle then pick tolerance taken more s' else (angle, false, s') := by
  simp only [pick, crowded_eq, decide_eq_true_iff]

/-- **One angle** is chosen from the next candidates. -/
theorem pick_eq (tolerance : K) (taken : Array K) (more : Nat) (s : σ) :
    ∃ n angle, Settles tolerance (more + 1) taken.toList (firstDraws (Random.below Scalar.tau) s n) angle ∧
      pick tolerance taken more s =
        (angle, decide (Crowded tolerance taken.toList angle), sourceAfter (Random.below (Scalar.tau : K)) s n) := by
  induction more generalizing s with
  | zero => exact ⟨1, _, .first Nat.one_pos fun _ => rfl, pick_zero tolerance taken s⟩
  | succ more ih =>
    rw [pick_succ]
    by_cases hfirst : Crowded tolerance taken.toList (Random.below (Scalar.tau : K) s).1
    · obtain ⟨n, angle, hsettles, hpick⟩ := ih (Random.below (Scalar.tau : K) s).2
      refine ⟨1 + n, angle, ?_, ?_⟩
      · rw [firstDraws_add]
        exact hsettles.cons hfirst
      · rw [sourceAfter_add]
        exact (if_pos hfirst).trans hpick
    · have hfree : decide (Crowded tolerance taken.toList (drawAt (Random.below (Scalar.tau : K)) s 0)) = false :=
        decide_eq_false hfirst
      refine ⟨1, _, .first (Nat.succ_pos _) fun h => absurd h hfirst, ?_⟩
      rw [hfree]
      exact if_neg hfirst

/-! ## All angles -/

/-- The angles are chosen one after the other from consecutive groups of candidates, and the crowded ones are
reported. -/
structure Spread (tolerance : K) (s : σ) (groups : List (List K)) (l : LeafAngles σ K) : Prop where
  length : groups.length = l.angles.toList.length
  draws : groups.flatten = firstDraws (Random.below Scalar.tau) s groups.flatten.length
  source : l.source = sourceAfter (Random.below (Scalar.tau : K)) s groups.flatten.length
  settles : ∀ i group angle, groups[i]? = some group → l.angles.toList[i]? = some angle →
    Settles tolerance maxAttempts (l.angles.toList.take i) group angle
  events : l.events.toList = (crowdedAmong tolerance l.angles.toList).map (.crowdedAngle maxAttempts)

section Spread

variable {tolerance : K} {s : σ} {groups : List (List K)} {l : LeafAngles σ K}

/-- **One more angle** takes one more group of candidates. -/
theorem Spread.extend (h : Spread tolerance s groups l) :
    ∃ group, Spread tolerance s (groups ++ [group]) (l.extend tolerance) := by
  obtain ⟨n, angle, hsettles, hpick⟩ := pick_eq tolerance l.angles (maxAttempts - 1) l.source
  let group := firstDraws (Random.below (Scalar.tau : K)) l.source n
  have hangles : (l.extend tolerance).angles.toList = l.angles.toList ++ [angle] := by
    rw [LeafAngles.extend, hpick]
    exact Array.toList_push
  have htaken : (groups ++ [group]).flatten.length = groups.flatten.length + n := by
    rw [List.flatten_concat, List.length_append, length_firstDraws]
  refine ⟨group, ?_, ?_, ?_, ?_, ?_⟩
  · rw [hangles, List.length_append, List.length_append, h.length]
    rfl
  · rw [htaken, firstDraws_add, ← h.draws, ← h.source, List.flatten_concat]
  · rw [htaken, sourceAfter_add, ← h.source, LeafAngles.extend, hpick]
  · rw [hangles]
    intro i g a hg ha
    rcases Nat.lt_trichotomy i groups.length with hi | rfl | hi
    · rw [List.getElem?_append_left hi] at hg
      rw [List.getElem?_append_left (h.length ▸ hi)] at ha
      rw [List.take_append_of_le_length (Nat.le_of_lt (h.length ▸ hi))]
      exact h.settles i g a hg ha
    · rw [List.getElem?_concat_length] at hg
      rw [h.length, List.getElem?_concat_length] at ha
      cases hg
      cases ha
      rw [h.length, List.take_left]
      exact hsettles
    · rw [List.getElem?_eq_none (by rw [List.length_append]; exact hi)] at hg
      cases hg
  · rw [hangles, crowdedAmong_concat, List.map_append, ← h.events, LeafAngles.extend, hpick]
    by_cases hcrowded : Crowded tolerance l.angles.toList angle <;> simp [hcrowded]

theorem exists_spread (tolerance : K) (count : Nat) (s : σ) :
    ∃ groups, Spread tolerance s groups (generate tolerance count s) := by
  induction count with
  | zero => exact ⟨[], rfl, rfl, rfl, fun _ _ _ h => (nomatch h), rfl⟩
  | succ count ih =>
    obtain ⟨groups, h⟩ := ih
    obtain ⟨group, h'⟩ := h.extend
    exact ⟨_, h'⟩

/-- Every angle has candidates of its own. -/
theorem Spread.exists_group (h : Spread tolerance s groups l) {i : Nat} {angle : K}
    (hangle : l.angles.toList[i]? = some angle) :
    ∃ group ∈ groups, Settles tolerance maxAttempts (l.angles.toList.take i) group angle := by
  obtain ⟨hi, -⟩ := List.getElem?_eq_some_iff.mp hangle
  have hgroup := List.getElem?_eq_getElem (h.length ▸ hi : i < groups.length)
  exact ⟨_, List.mem_of_getElem? hgroup, h.settles i _ angle hgroup hangle⟩

theorem Spread.length_group (h : Spread tolerance s groups l) {group : List K} (hgroup : group ∈ groups) :
    1 ≤ group.length ∧ group.length ≤ maxAttempts := by
  obtain ⟨i, hi, rfl⟩ := List.getElem_of_mem hgroup
  have hangle := List.getElem?_eq_getElem (h.length ▸ hi : i < l.angles.toList.length)
  have hsettles := h.settles i _ _ (List.getElem?_eq_getElem hi) hangle
  exact ⟨hsettles.pos, hsettles.length_le⟩

/-- Every angle takes a draw at least, and no more draws than there are attempts. -/
theorem Spread.length_draws (h : Spread tolerance s groups l) :
    groups.length ≤ groups.flatten.length ∧ groups.flatten.length ≤ maxAttempts * groups.length := by
  rw [List.length_flatten]
  have hlower := List.card_nsmul_le_sum (groups.map List.length) 1
    (List.forall_mem_map.mpr fun _ hgroup => (h.length_group hgroup).1)
  have hupper := List.sum_le_card_nsmul (groups.map List.length) maxAttempts
    (List.forall_mem_map.mpr fun _ hgroup => (h.length_group hgroup).2)
  rw [List.length_map, smul_eq_mul] at hlower hupper
  exact ⟨by omega, by rwa [Nat.mul_comm]⟩

/-- Every angle is a draw. -/
theorem Spread.exists_draw (h : Spread tolerance s groups l) {i : Nat} {angle : K}
    (hangle : l.angles.toList[i]? = some angle) : ∃ n, angle = drawAt (Random.below Scalar.tau) s n := by
  obtain ⟨group, hgroup, hsettles⟩ := h.exists_group hangle
  have hmem : angle ∈ groups.flatten :=
    List.mem_flatten.mpr ⟨group, hgroup, List.mem_of_getLast? hsettles.accepted⟩
  rw [h.draws] at hmem
  obtain ⟨n, -, rfl⟩ := List.mem_map.mp hmem
  exact ⟨n, rfl⟩

end Spread

/-- **The angles of a whorl.** There are as many angles as asked for. The draws of the source in their order are cut
into one group of candidates for every angle, which is the last candidate of its group: those in front of it are within
the tolerance of an earlier angle, and the angle itself is so only when it is the 1000th candidate. So every angle takes
between 1 and 1000 draws, and no others are taken. Unless the tolerance is undefined, an angle that is not crowded is
further than the tolerance from every earlier one. The crowded angles are reported in their order, and nothing else
is. -/
theorem generate_angles (tolerance : Float) (count : Nat) (s : σ) :
    (generate tolerance count s).angles.size = count ∧
    let l := generate tolerance count s
    let angles := l.angles.toList
    (∃ groups : List (List Float), groups.length = count ∧
      (∀ i group angle, groups[i]? = some group → angles[i]? = some angle →
        Settles tolerance 1000 (angles.take i) group angle) ∧
      ∃ taken, groups.flatten = firstDraws (Random.below Scalar.tau) s taken ∧
        l.source = sourceAfter (Random.below (Scalar.tau : Float)) s taken ∧
        count ≤ taken ∧ taken ≤ 1000 * count) ∧
    (tolerance.isNaN = false → ∀ i j a angle, j < i → angles[j]? = some a → angles[i]? = some angle →
      ¬ Crowded tolerance (angles.take i) angle → tolerance < Scalar.abs (a - angle)) ∧
    l.events.toList = (crowdedAmong tolerance angles).map (.crowdedAngle 1000) := by
  obtain ⟨groups, h⟩ := exists_spread tolerance count s
  have hcount : (generate tolerance count s).angles.size = count := size_generate tolerance count s
  have hgroups : groups.length = count := h.length.trans hcount
  obtain ⟨hlower, hupper⟩ := h.length_draws
  rw [hgroups] at hlower hupper
  refine ⟨hcount, ⟨groups, hgroups, h.settles, _, h.draws, h.source, hlower, hupper⟩, ?_, h.events⟩
  intro hdefined i j a angle hj ha hangle hfree
  have hnot : ¬ Scalar.abs (a - angle) ≤ tolerance := fun hclose =>
    hfree ⟨a, List.mem_of_getElem? ((List.getElem?_take_of_lt hj).trans ha), hclose⟩
  -- draws are finite, so that their difference is ordered against the tolerance
  obtain ⟨m, hm⟩ := h.exists_draw ha
  obtain ⟨n, hn⟩ := h.exists_draw hangle
  have hfinite : (a - angle).isNaN = false := by
    rw [hm, hn]
    exact Double.isNaN_sub (Double.isFinite_below_tau _) (Double.isFinite_below_tau _)
  exact Double.lt_of_not_le (Double.isNaN_abs hfinite) hdefined hnot

/-- Where all draws are the same, every angle but the first is crowded. -/
example :
    letI : RandomSource Nat := ⟨fun taken => (0, taken + 1)⟩
    let l := generate (0.5 : Float) 3 (0 : Nat)
    l.source = 2001 ∧ l.events.size = 2 := by
  decide +kernel

end Foliage.LeafAngles
