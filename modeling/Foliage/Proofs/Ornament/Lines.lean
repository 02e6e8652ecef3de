import Foliage.Ornament.Reader
import Foliage.Proofs.PartialMap

/-!
# What comes of the lines of an ornament file

The outcome of `Ornament.parse` is told from the words of the lines (`parse_outcome`). A line is malformed when it
announces a vertex or a triangle and three values do not follow; the first malformed line is the error
(`readLines_of_malformed`). Without one, the draft has the vertices and the triangles that the lines give, in their
order (`readLines_of_well`), and only then the corners of the triangles are looked up among all vertices, so that the
first triangle that names a vertex beyond the last one is the error (`findSome?_missing_of_beyond`).
-/

namespace Foliage

/-- Some word of a line is not there or cannot be read. -/
def OrnamentCause.OfWord : OrnamentCause → Prop
  | .missingValue => True
  | .badValue _ => True
  | .missingVertex _ _ => False

namespace Ornament

variable {α K : Type}

/-! ## Words -/

/-- The word writes a count: digits before the first slash, which may stand behind a plus sign, of a positive number
of at most 64 bits. -/
def WritesCount (w : List Char) (n : Nat) : Prop :=
  ∃ digits, (w.takeWhile (· ≠ '/') = digits ∨ w.takeWhile (· ≠ '/') = '+' :: digits) ∧
    digits ≠ [] ∧ (∀ c ∈ digits, c.isDigit = true) ∧ Decimal.natOfDigits digits = n ∧ 0 < n ∧ n < Nat.pow 2 64

/-- The word writes a coordinate. -/
def WritesCoordinate [Numeral K] (w : List Char) (x : K) : Prop := Numeral.read w = .ok x

theorem unsigned_cases (cs : List Char) : cs = unsigned cs ∨ cs = '+' :: unsigned cs := by
  unfold unsigned
  split
  · exact .inr rfl
  · exact .inl rfl

theorem unsigned_of_digits {cs : List Char} (h : ∀ c ∈ cs, c.isDigit = true) : unsigned cs = cs := by
  unfold unsigned
  split
  · exact absurd (h '+' List.mem_cons_self) (by decide)
  · rfl

/-- A word names a vertex, counted from zero, by the count that is one more. -/
theorem index?_eq_some_iff {w : List Char} {k : Nat} : index? w = some k ↔ WritesCount w (k + 1) := by
  constructor
  · intro h
    simp only [index?] at h
    split at h
    case isFalse => cases h
    case isTrue hcount =>
      obtain ⟨hne, hdigits, hpos, hlt⟩ := hcount
      have hk := Nat.sub_add_cancel hpos
      rw [Option.some.inj h] at hk
      exact ⟨_, unsigned_cases _, hne, List.all_eq_true.mp hdigits, hk.symm, Nat.succ_pos k, hk ▸ hlt⟩
  · rintro ⟨digits, hword, hne, hdigits, hn, -, hlt⟩
    have hunsigned : unsigned (w.takeWhile (· ≠ '/')) = digits := by
      rcases hword with hword | hword
      · rw [hword, unsigned_of_digits hdigits]
      · rw [hword, unsigned]
    simp only [index?]
    rw [hunsigned, hn, if_pos ⟨hne, List.all_eq_true.mpr hdigits, Nat.succ_pos k, hlt⟩, Nat.add_sub_cancel]

theorem WritesCount.pos {w : List Char} {n : Nat} (h : WritesCount w n) : 0 < n := by
  obtain ⟨_, _, _, _, _, hpos, _⟩ := h
  exact hpos

theorem isSome_index?_iff {w : List Char} : (∃ k, index? w = some k) ↔ ∃ n, WritesCount w n := by
  constructor
  · rintro ⟨k, hk⟩
    exact ⟨k + 1, index?_eq_some_iff.mp hk⟩
  · rintro ⟨n, hn⟩
    obtain ⟨k, rfl⟩ := Nat.exists_eq_add_one.mpr hn.pos
    exact ⟨k, index?_eq_some_iff.mpr hn⟩

theorem coordinate?_eq_some_iff [Numeral K] {w : List Char} {x : K} :
    coordinate? w = some x ↔ WritesCoordinate w x := by
  unfold coordinate? WritesCoordinate
  cases (Numeral.read w : Except NumeralError K) <;> simp [Except.toOption]

/-! ## Three words -/

/-- The three words behind the first one of a line write three values. -/
def WritesThree (Writes : List Char → α → Prop) (ws : List (List Char)) (a b c : α) : Prop :=
  ∃ u v w, ws.tail.take 3 = [u, v, w] ∧ Writes u a ∧ Writes v b ∧ Writes w c

/-- Why some words do not begin with `n` valid ones: behind fewer valid ones they end, or there is a word that is not
valid. -/
inductive Lacks (Valid : List Char → Prop) : Nat → List (List Char) → OrnamentCause → Prop
  | ends (n : Nat) : Lacks Valid (n + 1) [] .missingValue
  | wrong (n : Nat) {w : List Char} (ws : List (List Char)) (h : ¬ Valid w) :
      Lacks Valid (n + 1) (w :: ws) (.badValue w)
  | behind {n : Nat} {w : List Char} {ws : List (List Char)} {cause : OrnamentCause} (hw : Valid w)
      (h : Lacks Valid n ws cause) : Lacks Valid (n + 1) (w :: ws) cause

section Words

variable {Valid : List Char → Prop} {value? : List Char → Option α} {ws : List (List Char)} {cause : OrnamentCause}

theorem Lacks.ofWord {n : Nat} (h : Lacks Valid n ws cause) : cause.OfWord := by
  induction h with
  | ends n => trivial
  | wrong n ws hw => trivial
  | behind hw h ih => exact ih

theorem Lacks.exists_not_valid {n : Nat} (h : Lacks Valid n ws cause) (hn : n ≤ ws.length) :
    ∃ w ∈ ws.take n, ¬ Valid w := by
  induction h with
  | ends n => exact absurd hn (Nat.not_succ_le_zero n)
  | wrong n ws hw => exact ⟨_, List.mem_cons_self, hw⟩
  | behind hw h ih =>
    obtain ⟨w, hmem, hnot⟩ := ih (Nat.le_of_succ_le_succ hn)
    exact ⟨w, List.mem_cons_of_mem _ hmem, hnot⟩

/-- Words that write three values lack none. -/
theorem not_writesThree_of_lacks {Writes : List Char → α → Prop} (hvalid : ∀ w a, Writes w a → Valid w)
    (h : Lacks Valid 3 ws.tail cause) (a b c : α) : ¬ WritesThree Writes ws a b c := by
  rintro ⟨u, v, w, hwords, hu, hv, hw⟩
  have hlength : 3 ≤ ws.tail.length := by
    have htake : min 3 ws.tail.length = 3 := by rw [← List.length_take, hwords]; rfl
    omega
  obtain ⟨x, hx, hnot⟩ := h.exists_not_valid hlength
  rw [hwords] at hx
  simp only [List.mem_cons, List.not_mem_nil, or_false] at hx
  rcases hx with rfl | rfl | rfl
  · exact hnot (hvalid _ _ hu)
  · exact hnot (hvalid _ _ hv)
  · exact hnot (hvalid _ _ hw)

theorem takeValue_cases (hvalid : ∀ w, (∃ a, value? w = some a) ↔ Valid w) (line : Nat) (ws : List (List Char)) :
    (∃ w rest a, ws = w :: rest ∧ value? w = some a ∧ takeValue line value? ws = .ok (a, rest)) ∨
      ∃ cause, (∀ n, Lacks Valid (n + 1) ws cause) ∧ takeValue line value? ws = .error ⟨line, cause⟩ := by
  cases ws with
  | nil => exact .inr ⟨_, Lacks.ends, rfl⟩
  | cons w rest =>
    cases hw : value? w with
    | some a => exact .inl ⟨w, rest, a, rfl, hw, by rw [takeValue, hw]⟩
    | none =>
      refine .inr ⟨_, fun n => Lacks.wrong n rest fun h => ?_, by rw [takeValue, hw]⟩
      obtain ⟨a, ha⟩ := (hvalid w).mpr h
      cases hw.symm.trans ha

theorem takeThree_cases (hvalid : ∀ w, (∃ a, value? w = some a) ↔ Valid w) (line : Nat) (ws : List (List Char)) :
    (∃ u v w a b c, ws.take 3 = [u, v, w] ∧ value? u = some a ∧ value? v = some b ∧ value? w = some c ∧
      takeThree line value? ws = .ok (a, b, c)) ∨
      ∃ cause, Lacks Valid 3 ws cause ∧ takeThree line value? ws = .error ⟨line, cause⟩ := by
  unfold takeThree
  rcases takeValue_cases hvalid line ws with ⟨u, ws, a, rfl, hu, hread⟩ | ⟨cause, hlacks, hread⟩
  · have hu' : Valid u := (hvalid u).mp ⟨a, hu⟩
    rw [hread]
    rcases takeValue_cases hvalid line ws with ⟨v, ws, b, rfl, hv, hread⟩ | ⟨cause, hlacks, hread⟩
    · have hv' : Valid v := (hvalid v).mp ⟨b, hv⟩
      rcases takeValue_cases hvalid line ws with ⟨w, ws, c, rfl, hw, hread'⟩ | ⟨cause, hlacks, hread'⟩
      · refine .inl ⟨u, v, w, a, b, c, rfl, hu, hv, hw, ?_⟩
        simp only [bind, Except.bind, hread, hread']
        rfl
      · refine .inr ⟨cause, .behind hu' (.behind hv' (hlacks 0)), ?_⟩
        simp only [bind, Except.bind, hread, hread']
    · refine .inr ⟨cause, .behind hu' (hlacks 1), ?_⟩
      simp only [bind, Except.bind, hread]
  · refine .inr ⟨cause, hlacks 2, ?_⟩
    rw [hread]
    rfl

end Words

/-! ## Lines -/

/-- The line announces a vertex by its first word. -/
abbrev IsVertexLine (ws : List (List Char)) : Prop := ws.head? = some ['v']

/-- The line announces a triangle by its first word. -/
abbrev IsTriangleLine (ws : List (List Char)) : Prop := ws.head? = some ['f']

variable (K) in
/-- The line announces a vertex or a triangle, and three values do not follow. -/
def Malformed [Numeral K] (ws : List (List Char)) : Prop :=
  (IsVertexLine ws ∧ ∀ x y z : K, ¬ WritesThree WritesCoordinate ws x y z) ∨
    (IsTriangleLine ws ∧ ∀ i j k, ¬ WritesThree WritesCount ws i j k)

variable (K) in
/-- Why a line is malformed. -/
def Flaw [Numeral K] (ws : List (List Char)) (cause : OrnamentCause) : Prop :=
  (IsVertexLine ws ∧ Lacks (fun w => ∃ x : K, WritesCoordinate w x) 3 ws.tail cause) ∨
    (IsTriangleLine ws ∧ Lacks (fun w => ∃ n, WritesCount w n) 3 ws.tail cause)

/-- The line gives a vertex: the second coordinate is upward. -/
def GivesVertex [Scalar K] [Numeral K] (scale : K) (ws : List (List Char)) (v : Vec K) : Prop :=
  ∃ x y z : K, WritesThree WritesCoordinate ws x y z ∧ v = (⟨x, z, y⟩ : Vec K) * scale

/-- The line gives a triangle: its vertices are counted from one. -/
def GivesTriangle (ws : List (List Char)) (t : Triangle) : Prop :=
  WritesThree WritesCount ws (t.a + 1) (t.b + 1) (t.c + 1)

/-- The triangles that some lines give, each with its line; the first line has the given number. -/
inductive GivesTriangles : Nat → List (List (List Char)) → List (Nat × Triangle) → Prop
  | nil (line : Nat) : GivesTriangles line [] []
  | triangle {line : Nat} {ws : List (List Char)} {rows : List (List (List Char))} {t : Triangle}
      {ts : List (Nat × Triangle)} (hline : IsTriangleLine ws) (ht : GivesTriangle ws t)
      (h : GivesTriangles (line + 1) rows ts) : GivesTriangles line (ws :: rows) ((line, t) :: ts)
  | other {line : Nat} {ws : List (List Char)} {rows : List (List (List Char))} {ts : List (Nat × Triangle)}
      (hline : ¬ IsTriangleLine ws) (h : GivesTriangles (line + 1) rows ts) : GivesTriangles line (ws :: rows) ts

/-- What a line means that is not malformed. -/
inductive Meaning [Scalar K] [Numeral K] (scale : K) (ws : List (List Char)) : Item K → Prop
  | vertex {v : Vec K} (hline : IsVertexLine ws) (h : GivesVertex scale ws v) : Meaning scale ws (.vertex v)
  | triangle {t : Triangle} (hline : IsTriangleLine ws) (h : GivesTriangle ws t) : Meaning scale ws (.triangle t)
  | remark (hv : ¬ IsVertexLine ws) (hf : ¬ IsTriangleLine ws) : Meaning scale ws .remark

theorem not_isTriangleLine {ws : List (List Char)} (h : IsVertexLine ws) : ¬ IsTriangleLine ws := by
  intro hf
  cases h.symm.trans hf

section Items

variable [Numeral K] {ws : List (List Char)} {cause : OrnamentCause}

theorem Flaw.ofWord (h : Flaw K ws cause) : cause.OfWord := by
  rcases h with ⟨-, h⟩ | ⟨-, h⟩
  · exact h.ofWord
  · exact h.ofWord

theorem malformed_of_flaw (h : Flaw K ws cause) : Malformed K ws := by
  rcases h with ⟨hline, h⟩ | ⟨hline, h⟩
  · exact .inl ⟨hline, not_writesThree_of_lacks (fun _ x hx => ⟨x, hx⟩) h⟩
  · exact .inr ⟨hline, not_writesThree_of_lacks (fun _ n hn => ⟨n, hn⟩) h⟩

variable [Scalar K] {scale : K} {i : Item K} {text : String}

theorem not_malformed_of_meaning (h : Meaning scale ws i) : ¬ Malformed K ws := by
  rintro (⟨hv, hnone⟩ | ⟨hf, hnone⟩)
  · cases h with
    | vertex _ h =>
      obtain ⟨x, y, z, hthree, -⟩ := h
      exact hnone x y z hthree
    | triangle hline _ => exact not_isTriangleLine hv hline
    | remark hv' _ => exact hv' hv
  · cases h with
    | vertex hline _ => exact not_isTriangleLine hline hf
    | triangle _ h => exact hnone _ _ _ h
    | remark _ hf' => exact hf' hf

theorem item_vertex (scale : K) (line : Nat) (values : List (List Char)) :
    (∃ v, GivesVertex scale (['v'] :: values) v ∧ item scale line (['v'] :: values) = .ok (.vertex v)) ∨
      ∃ cause, Flaw K (['v'] :: values) cause ∧ item scale line (['v'] :: values) = .error ⟨line, cause⟩ := by
  have hvalid : ∀ w, (∃ x : K, coordinate? w = some x) ↔ ∃ x : K, WritesCoordinate w x :=
    fun w => exists_congr fun x => coordinate?_eq_some_iff
  rcases takeThree_cases hvalid line values with ⟨u, v, w, x, y, z, hwords, hx, hy, hz, h⟩ | ⟨cause, hlacks, h⟩
  · refine .inl ⟨_, ⟨x, y, z, ⟨u, v, w, hwords, ?_, ?_, ?_⟩, rfl⟩, ?_⟩
    · exact coordinate?_eq_some_iff.mp hx
    · exact coordinate?_eq_some_iff.mp hy
    · exact coordinate?_eq_some_iff.mp hz
    · simp only [item, h]
      rfl
  · refine .inr ⟨cause, .inl ⟨rfl, hlacks⟩, ?_⟩
    simp only [item, h]
    rfl

theorem item_triangle (scale : K) (line : Nat) (values : List (List Char)) :
    (∃ t, GivesTriangle (['f'] :: values) t ∧ item scale line (['f'] :: values) = .ok (.triangle t)) ∨
      ∃ cause, Flaw K (['f'] :: values) cause ∧ item scale line (['f'] :: values) = .error ⟨line, cause⟩ := by
  rcases takeThree_cases (fun _ => isSome_index?_iff) line values with
    ⟨u, v, w, a, b, c, hwords, ha, hb, hc, h⟩ | ⟨cause, hlacks, h⟩
  · refine .inl ⟨⟨a, b, c⟩, ⟨u, v, w, hwords, ?_, ?_, ?_⟩, ?_⟩
    · exact index?_eq_some_iff.mp ha
    · exact index?_eq_some_iff.mp hb
    · exact index?_eq_some_iff.mp hc
    · simp only [item, h]
      rfl
  · refine .inr ⟨cause, .inr ⟨rfl, hlacks⟩, ?_⟩
    simp only [item, h]
    rfl

/-- A line has a meaning or a flaw. -/
theorem item_cases (scale : K) (line : Nat) (ws : List (List Char)) :
    (∃ i, Meaning scale ws i ∧ item scale line ws = .ok i) ∨
      ∃ cause, Flaw K ws cause ∧ item scale line ws = .error ⟨line, cause⟩ := by
  by_cases hv : IsVertexLine ws
  · obtain ⟨values, rfl⟩ := List.head?_eq_some_iff.mp hv
    rcases item_vertex scale line values with ⟨v, hgives, h⟩ | herror
    · exact .inl ⟨_, .vertex rfl hgives, h⟩
    · exact .inr herror
  · by_cases hf : IsTriangleLine ws
    · obtain ⟨values, rfl⟩ := List.head?_eq_some_iff.mp hf
      rcases item_triangle scale line values with ⟨t, hgives, h⟩ | herror
      · exact .inl ⟨_, .triangle rfl hgives, h⟩
      · exact .inr herror
    · refine .inl ⟨_, .remark hv hf, ?_⟩
      unfold item
      split
      · exact absurd rfl hv
      · exact absurd rfl hf
      · rfl

theorem item_of_malformed (h : Malformed K ws) (scale : K) (line : Nat) :
    ∃ cause, Flaw K ws cause ∧ item scale line ws = .error ⟨line, cause⟩ := by
  rcases item_cases scale line ws with ⟨i, hmeaning, -⟩ | herror
  · exact absurd h (not_malformed_of_meaning hmeaning)
  · exact herror

theorem item_of_well (h : ¬ Malformed K ws) (scale : K) (line : Nat) :
    ∃ i, Meaning scale ws i ∧ item scale line ws = .ok i := by
  rcases item_cases scale line ws with hok | ⟨cause, hflaw, -⟩
  · exact hok
  · exact absurd (malformed_of_flaw hflaw) h

/-! ## All lines -/

/-- The first malformed line is the error. -/
theorem readLines_of_malformed {before : List (List Char)} {l : List Char} (after : List (List Char))
    (hbefore : ∀ b ∈ before, ¬ Malformed K (Text.words b)) (hl : Malformed K (Text.words l)) (scale : K) (line : Nat)
    (d : Draft K) :
    ∃ cause, Flaw K (Text.words l) cause ∧
      readLines scale line d (before ++ l :: after) = .error ⟨line + before.length, cause⟩ := by
  induction before generalizing line d with
  | nil =>
    obtain ⟨cause, hflaw, h⟩ := item_of_malformed hl scale line
    exact ⟨cause, hflaw, by rw [List.nil_append, readLines, h]; rfl⟩
  | cons b before ih =>
    obtain ⟨i, -, h⟩ := item_of_well (hbefore b List.mem_cons_self) scale line
    obtain ⟨cause, hflaw, hrest⟩ := ih (fun b hb => hbefore b (List.mem_cons_of_mem _ hb)) (line + 1) (d.add line i)
    refine ⟨cause, hflaw, ?_⟩
    rw [List.cons_append, readLines, h]
    simp only
    rw [hrest, List.length_cons, Nat.add_right_comm, Nat.add_assoc]

/-- Lines that are not malformed add what they give. -/
theorem readLines_of_well {ls : List (List Char)} (h : ∀ l ∈ ls, ¬ Malformed K (Text.words l)) (scale : K)
    (line : Nat) (d : Draft K) :
    ∃ vs ts, readLines scale line d ls = .ok ⟨d.vertices ++ vs.toArray, d.triangles ++ ts.toArray⟩ ∧
      List.Forall₂ (GivesVertex scale) ((ls.map Text.words).filter IsVertexLine) vs ∧
      GivesTriangles line (ls.map Text.words) ts := by
  induction ls generalizing line d with
  | nil => exact ⟨[], [], by simp [readLines], .nil, .nil line⟩
  | cons l ls ih =>
    obtain ⟨i, hmeaning, hitem⟩ := item_of_well (h l List.mem_cons_self) scale line
    obtain ⟨vs, ts, hrest, hvs, hts⟩ := ih (fun l hl => h l (List.mem_cons_of_mem _ hl)) (line + 1) (d.add line i)
    rw [readLines, hitem, List.map_cons]
    simp only
    rw [hrest]
    cases hmeaning with
    | @vertex v hline hgives =>
      refine ⟨v :: vs, ts, by simp [Draft.add], ?_, .other (not_isTriangleLine hline) hts⟩
      rw [List.filter_cons_of_pos (by simpa using hline)]
      exact .cons hgives hvs
    | @triangle t hline hgives =>
      refine ⟨vs, (line, t) :: ts, by simp [Draft.add], ?_, .triangle hline hgives hts⟩
      rw [List.filter_cons_of_neg (by simpa using fun hv => not_isTriangleLine hv hline)]
      exact hvs
    | remark hv hf =>
      refine ⟨vs, ts, by simp [Draft.add], ?_, .other hf hts⟩
      rw [List.filter_cons_of_neg (by simpa using hv)]
      exact hvs

end Items

/-! ## Vertices that do not exist -/

/-- The line announces a triangle, and of the vertices that it names the `n`-th is the first one beyond the last of
`count` vertices. -/
def NamesBeyond (count : Nat) (ws : List (List Char)) (n : Nat) : Prop :=
  IsTriangleLine ws ∧ ∃ i j k, WritesThree WritesCount ws i j k ∧ [i, j, k].find? (count < ·) = some n

section Triangles

variable {ws : List (List Char)} {t : Triangle} {d : Draft K} {n count : Nat}

theorem WritesCount.unique {w : List Char} {m : Nat} (hm : WritesCount w m) (hn : WritesCount w n) : m = n := by
  obtain ⟨k, rfl⟩ := Nat.exists_eq_add_one.mpr hm.pos
  obtain ⟨l, rfl⟩ := Nat.exists_eq_add_one.mpr hn.pos
  have hkl : some k = some l := (index?_eq_some_iff.mpr hm).symm.trans (index?_eq_some_iff.mpr hn)
  rw [Option.some.inj hkl]

theorem namesBeyond_iff (hline : IsTriangleLine ws) (h : GivesTriangle ws t) :
    NamesBeyond count ws n ↔ (t.corners.map (· + 1)).find? (count < ·) = some n := by
  obtain ⟨u, v, w, hwords, hu, hv, hw⟩ := h
  constructor
  · rintro ⟨-, i, j, k, ⟨u', v', w', hwords', hi, hj, hk⟩, hfind⟩
    obtain ⟨rfl, rfl, rfl⟩ : u = u' ∧ v = v' ∧ w = w' := by simpa using hwords.symm.trans hwords'
    rwa [hi.unique hu, hj.unique hv, hk.unique hw] at hfind
  · intro hfind
    exact ⟨hline, _, _, _, ⟨u, v, w, hwords, hu, hv, hw⟩, hfind⟩

theorem missing?_eq_map (d : Draft K) (line : Nat) (t : Triangle) :
    d.missing? (line, t) = ((t.corners.map (· + 1)).find? (d.vertices.size < ·)).map fun n =>
      ⟨line, .missingVertex n d.vertices.size⟩ := by
  rw [List.find?_map, Option.map_map, Draft.missing?]
  simp only [Function.comp_def, Nat.lt_succ_iff]

theorem missing?_of_beyond (hws : NamesBeyond d.vertices.size ws n) (h : GivesTriangle ws t) (line : Nat) :
    d.missing? (line, t) = some ⟨line, .missingVertex n d.vertices.size⟩ := by
  rw [missing?_eq_map, (namesBeyond_iff hws.1 h).mp hws]
  rfl

theorem missing?_of_within (hws : ∀ n, ¬ NamesBeyond d.vertices.size ws n) (hline : IsTriangleLine ws)
    (h : GivesTriangle ws t) (line : Nat) : d.missing? (line, t) = none := by
  have hnone : (t.corners.map (· + 1)).find? (d.vertices.size < ·) = none := by
    refine Option.eq_none_iff_forall_ne_some.mpr fun n hn => ?_
    exact hws n ((namesBeyond_iff hline h).mpr hn)
  rw [missing?_eq_map, hnone]
  rfl

variable {rows : List (List (List Char))} {line : Nat} {ts : List (Nat × Triangle)}

theorem findSome?_missing_of_within (hts : GivesTriangles line rows ts)
    (h : ∀ ws ∈ rows, ∀ n, ¬ NamesBeyond d.vertices.size ws n) : ts.findSome? d.missing? = none := by
  induction hts with
  | nil line => rfl
  | triangle hline ht hts ih =>
    rw [List.findSome?_cons, missing?_of_within (h _ List.mem_cons_self) hline ht]
    exact ih fun ws hws => h ws (List.mem_cons_of_mem _ hws)
  | other hline hts ih => exact ih fun ws hws => h ws (List.mem_cons_of_mem _ hws)

/-- The first line with a triangle that names a vertex beyond the last one is the first that misses a vertex. -/
theorem findSome?_missing_of_beyond {before after : List (List (List Char))}
    (hts : GivesTriangles line (before ++ ws :: after) ts)
    (hbefore : ∀ b ∈ before, ∀ m, ¬ NamesBeyond d.vertices.size b m) (hws : NamesBeyond d.vertices.size ws n) :
    ts.findSome? d.missing? = some ⟨line + before.length, .missingVertex n d.vertices.size⟩ := by
  induction before generalizing line ts with
  | nil =>
    cases hts with
    | triangle hline ht hts =>
      rw [List.findSome?_cons, missing?_of_beyond hws ht]
      rfl
    | other hline hts => exact absurd hws.1 hline
  | cons b before ih =>
    have hrest : ∀ b ∈ before, ∀ m, ¬ NamesBeyond d.vertices.size b m :=
      fun b hb => hbefore b (List.mem_cons_of_mem _ hb)
    rw [List.length_cons, Nat.add_comm before.length, ← Nat.add_assoc]
    cases hts with
    | triangle hline ht hts =>
      rw [List.findSome?_cons, missing?_of_within (hbefore b List.mem_cons_self) hline ht]
      exact ih hts hrest
    | other hline hts => exact ih hts hrest

theorem GivesTriangles.forall₂ (h : GivesTriangles line rows ts) :
    List.Forall₂ GivesTriangle (rows.filter IsTriangleLine) (ts.map Prod.snd) := by
  induction h with
  | nil line => exact .nil
  | triangle hline ht h ih =>
    rw [List.filter_cons_of_pos (by simpa using hline)]
    exact .cons ht ih
  | other hline h ih =>
    rw [List.filter_cons_of_neg (by simpa using hline)]
    exact ih

end Triangles

/-! ## The outcome -/

/-- The lines of a text, each as its words. -/
def wordLines (text : String) : List (List (List Char)) := (Text.lines text.toList).map Text.words

section Outcome

variable [Scalar K] [Numeral K] {text : String}

theorem parse_of_malformed {before after : List (List (List Char))} {ws : List (List Char)}
    (hlines : wordLines text = before ++ ws :: after) (hbefore : ∀ b ∈ before, ¬ Malformed K b)
    (hws : Malformed K ws) (scale : K) :
    ∃ cause, Flaw K ws cause ∧ parse text scale = .error ⟨before.length + 1, cause⟩ := by
  obtain ⟨ls, rest, hsplit, rfl, hrest⟩ := List.map_eq_append_iff.mp hlines
  obtain ⟨l, after, rfl, rfl, rfl⟩ := List.map_eq_cons_iff.mp hrest
  obtain ⟨cause, hflaw, h⟩ :=
    readLines_of_malformed after (fun b hb => hbefore _ (List.mem_map_of_mem hb)) hws scale 1 ⟨#[], #[]⟩
  refine ⟨cause, hflaw, ?_⟩
  rw [parse, hsplit, h, List.length_map, Nat.add_comm]

/-- Without malformed lines, only the vertices that the triangles name are left to be looked up. -/
theorem parse_of_well (h : ∀ ws ∈ wordLines text, ¬ Malformed K ws) (scale : K) :
    ∃ d : Draft K, List.Forall₂ (GivesVertex scale) ((wordLines text).filter IsVertexLine) d.vertices.toList ∧
      GivesTriangles 1 (wordLines text) d.triangles.toList ∧
      (∀ e, d.triangles.toList.findSome? d.missing? = some e → parse text scale = .error e) ∧
      (d.triangles.toList.findSome? d.missing? = none →
        parse text scale = .ok ⟨d.vertices, d.triangles.toList.map Prod.snd, .unitZ⟩) := by
  obtain ⟨vs, ts, hread, hvs, hts⟩ :=
    readLines_of_well (fun l hl => h _ (List.mem_map_of_mem hl)) scale 1 ⟨#[], #[]⟩
  rw [Array.empty_append, Array.empty_append] at hread
  refine ⟨⟨vs.toArray, ts.toArray⟩, hvs, hts, ?_, ?_⟩
  · intro e he
    simp only [parse, hread, he]
  · intro hnone
    simp only [parse, hread, hnone]

variable {before after : List (List (List Char))} {ws : List (List Char)} {n : Nat}

theorem parse_of_beyond (h : ∀ ws ∈ wordLines text, ¬ Malformed K ws)
    (hlines : wordLines text = before ++ ws :: after)
    (hbefore : ∀ b ∈ before, ∀ m, ¬ NamesBeyond ((wordLines text).filter IsVertexLine).length b m)
    (hws : NamesBeyond ((wordLines text).filter IsVertexLine).length ws n) (scale : K) :
    parse text scale =
      .error ⟨before.length + 1, .missingVertex n ((wordLines text).filter IsVertexLine).length⟩ := by
  obtain ⟨d, hvs, hts, herror, -⟩ := parse_of_well h scale
  rw [hvs.length_eq.trans Array.length_toList] at hbefore hws ⊢
  rw [hlines] at hts
  rw [herror _ (findSome?_missing_of_beyond hts hbefore hws), Nat.add_comm]

theorem parse_of_within (h : ∀ ws ∈ wordLines text, ¬ Malformed K ws)
    (hwithin : ∀ ws ∈ wordLines text, ∀ n, ¬ NamesBeyond ((wordLines text).filter IsVertexLine).length ws n)
    (scale : K) :
    ∃ o, parse text scale = .ok o ∧
      List.Forall₂ (GivesVertex scale) ((wordLines text).filter IsVertexLine) o.vertices.toList ∧
      List.Forall₂ GivesTriangle ((wordLines text).filter IsTriangleLine) o.triangles ∧ o.heading = .unitZ := by
  obtain ⟨d, hvs, hts, -, hok⟩ := parse_of_well h scale
  rw [hvs.length_eq.trans Array.length_toList] at hwithin
  exact ⟨_, hok (findSome?_missing_of_within hts hwithin), hvs, hts.forall₂, rfl⟩

theorem parse_error_iff_of_well (h : ∀ ws ∈ wordLines text, ¬ Malformed K ws) (scale : K) :
    (∃ e, parse text scale = .error e) ↔
      ∃ ws ∈ wordLines text, ∃ n, NamesBeyond ((wordLines text).filter IsVertexLine).length ws n := by
  constructor
  · rintro ⟨e, he⟩
    by_contra hnone
    push Not at hnone
    obtain ⟨o, ho, -⟩ := parse_of_within h hnone scale
    cases he.symm.trans ho
  · intro hex
    obtain ⟨before, ws, after, hlines, hbefore, n, hws⟩ := exists_first hex
    exact ⟨_, parse_of_beyond h hlines (fun b hb => not_exists.mp (hbefore b hb)) hws scale⟩

theorem parse_word_error_iff (text : String) (scale : K) :
    (∃ e, parse text scale = .error e ∧ e.cause.OfWord) ↔ ∃ ws ∈ wordLines text, Malformed K ws := by
  constructor
  · rintro ⟨e, he, hword⟩
    by_contra hnone
    push Not at hnone
    obtain ⟨before, ws, after, hlines, hbefore, n, hws⟩ :=
      exists_first ((parse_error_iff_of_well hnone scale).mp ⟨e, he⟩)
    have hbeyond := parse_of_beyond hnone hlines (fun b hb => not_exists.mp (hbefore b hb)) hws scale
    obtain rfl := Except.error.inj (he.symm.trans hbeyond)
    exact hword
  · intro hex
    obtain ⟨before, ws, after, hlines, hbefore, hws⟩ := exists_first hex
    obtain ⟨cause, hflaw, h⟩ := parse_of_malformed hlines hbefore hws scale
    exact ⟨_, h, hflaw.ofWord⟩

/-- **What comes of the text of an ornament.** A word is the error exactly when some line is malformed: it announces a
vertex or a triangle, and three values do not follow. The error then has the number of the first such line, wherever
triangles name vertices that do not exist. Without malformed lines, there is an error exactly when some triangle names
a vertex beyond the number of all vertices of the text. The error then has the number of the first such line, the first
vertex that it names beyond this number, and the number. Otherwise there is an ornament that points upward, with the
vertices and the triangles that the lines give, in their order. -/
theorem parse_outcome (text : String) (scale : K) :
    let lines := wordLines text
    let count := (lines.filter IsVertexLine).length
    ((∃ e, parse text scale = .error e ∧ e.cause.OfWord) ↔ ∃ ws ∈ lines, Malformed K ws) ∧
    (∀ before ws after, lines = before ++ ws :: after → (∀ b ∈ before, ¬ Malformed K b) → Malformed K ws →
      ∃ cause, Flaw K ws cause ∧ parse text scale = .error ⟨before.length + 1, cause⟩) ∧
    ((∀ ws ∈ lines, ¬ Malformed K ws) →
      ((∃ e, parse text scale = .error e) ↔ ∃ ws ∈ lines, ∃ n, NamesBeyond count ws n) ∧
      (∀ before ws after n, lines = before ++ ws :: after → (∀ b ∈ before, ∀ m, ¬ NamesBeyond count b m) →
        NamesBeyond count ws n → ∃ e, parse text scale = .error e ∧ e.line = before.length + 1 ∧
          e.cause = .missingVertex n count ∧
          e.cause.message = "vertex " ++ toString n ++ " referenced but only " ++ toString count ++ " exist") ∧
      ((∀ ws ∈ lines, ∀ n, ¬ NamesBeyond count ws n) → ∃ o, parse text scale = .ok o ∧
        List.Forall₂ (GivesVertex scale) (lines.filter IsVertexLine) o.vertices.toList ∧
        List.Forall₂ GivesTriangle (lines.filter IsTriangleLine) o.triangles ∧ o.heading = .unitZ)) := by
  intro lines count
  refine ⟨parse_word_error_iff text scale, ?_, fun hwell => ⟨parse_error_iff_of_well hwell scale, ?_, ?_⟩⟩
  · intro before ws after hlines hbefore hws
    exact parse_of_malformed hlines hbefore hws scale
  · intro before ws after n hlines hbefore hws
    exact ⟨_, parse_of_beyond hwell hlines hbefore hws scale, rfl, rfl, rfl⟩
  · intro hwithin
    exact parse_of_within hwell hwithin scale

-- A vertex that is not there, with a malformed line behind it and without.
example : parse "f 1 1 9\nv 0 0" (1 : Float) matches .error ⟨2, .missingValue⟩ := by decide +kernel
example : parse "f 1/4 2//1 3 x\nv 0 1 2\nv 1 0 0" (1 : Float) matches .error ⟨1, .missingVertex 3 2⟩ := by
  decide +kernel

end Outcome

end Ornament

end Foliage
