import Foliage.Proofs.Notation.Characters

/-!
# The grammar of the notation

A text is a sequence of items: blanks, and characters that stand for symbols, each with a parenthesis when one follows
at once. `Item cs xs rest` says that the text `cs` begins with an item that writes the symbols `xs` (one or none) and
goes on with `rest`, and `Reads cs xs rest` says so of several items. A text is `Stuck` when no item is at its start.

Every text that is not empty begins with an item or is stuck (`item_or_stuck`). The parser follows an item
(`parseFrom_of_item`) and fails where the text is stuck (`parseFrom_of_stuck`). So the texts that are read are those
that items exhaust, and any other is stuck behind items; the error says where, in bytes, and why (`parse_grammar`).
-/

namespace Foliage.Notation

variable {K : Type}

/-! ## Parentheses and bytes -/

theorem closing?_eq_some_iff {cs literal rest : List Char} :
    closing? cs = some (literal, rest) ↔ cs = literal ++ ')' :: rest ∧ ')' ∉ literal := by
  induction cs generalizing literal with
  | nil => simp [closing?]
  | cons c cs ih =>
    rw [closing?]
    split
    · rename_i hc
      cases literal with
      | nil => simp [hc, eq_comm]
      | cons d ds =>
        simp only [Option.some.injEq, Prod.mk.injEq, List.nil_eq, reduceCtorEq, false_and, List.cons_append,
          List.cons.injEq, List.mem_cons, not_or, false_iff, not_and]
        rintro ⟨rfl, -⟩ hd
        exact absurd hc.symm hd
    · rename_i hc
      rw [Option.map_eq_some_iff]
      constructor
      · rintro ⟨⟨l, r⟩, hl, he⟩
        obtain ⟨rfl, rfl⟩ := Prod.mk.inj he
        obtain ⟨rfl, hmem⟩ := ih.mp hl
        exact ⟨rfl, by simp [Ne.symm hc, hmem]⟩
      · rintro ⟨he, hmem⟩
        cases literal with
        | nil => exact absurd (List.cons.inj he).1 hc
        | cons d ds =>
          obtain ⟨rfl, rfl⟩ := List.cons.inj he
          exact ⟨(ds, rest), ih.mpr ⟨rfl, fun h => hmem (List.mem_cons_of_mem _ h)⟩, rfl⟩

theorem closing?_eq_none_iff {cs : List Char} : closing? cs = none ↔ ')' ∉ cs := by
  induction cs with
  | nil => simp [closing?]
  | cons c cs ih => by_cases hc : c = ')' <;> simp [closing?, hc, ih, @eq_comm _ ')']

@[simp] theorem byteSize_append (cs ds : List Char) : byteSize (cs ++ ds) = byteSize cs + byteSize ds := by
  induction cs with
  | nil => simp [byteSize]
  | cons c cs ih => simp [byteSize, ih, Nat.add_assoc]

theorem utf8Size_open : '('.utf8Size = 1 := rfl

theorem utf8Size_close : ')'.utf8Size = 1 := rfl

theorem byteSize_toList (s : String) : byteSize s.toList = s.utf8ByteSize := by
  have h : ∀ cs : List Char, byteSize cs = (String.ofList cs).utf8ByteSize := by
    intro cs
    induction cs with
    | nil => rfl
    | cons c cs ih =>
      rw [byteSize, ih, String.ofList_cons, String.utf8ByteSize_append, String.utf8ByteSize_singleton]
  rw [h, String.ofList_toList]

/-! ## Items -/

/-- A text begins with an item, which writes the given symbols, and goes on with a rest. -/
inductive Item [Scalar K] [Numeral K] : List Char → List (Symbol K) → List Char → Prop
  | blank {c : Char} {rest : List Char} : Text.isBlank c → Item (c :: rest) [] rest
  | bare {c : Char} {rest : List Char} {tag : Tag} {amount : Option K} :
      Stands c tag amount → rest.head? ≠ some '(' → Item (c :: rest) [⟨tag, amount⟩] rest
  | applied {c : Char} {literal rest : List Char} {tag : Tag} {amount : Option K} {a : K} :
      Stands c tag amount → ')' ∉ literal → Numeral.read (Text.trim literal) = .ok a →
      Item (c :: '(' :: (literal ++ ')' :: rest)) [⟨tag, some a⟩] rest

/-- A text begins with items, which write the given symbols, and goes on with a rest. -/
inductive Reads [Scalar K] [Numeral K] : List Char → List (Symbol K) → List Char → Prop
  | done (rest : List Char) : Reads rest [] rest
  | item {cs next rest : List Char} {xs ys : List (Symbol K)} :
      Item cs xs next → Reads next ys rest → Reads cs (xs ++ ys) rest

/-- A text begins with no item: why, and after how many bytes this shows. -/
inductive Stuck (K : Type) [Scalar K] [Numeral K] : List Char → Nat → ParseCause → Prop
  | unknown {c : Char} {rest : List Char} : Text.isBlank c = false → c ∉ glyphs → Text.isAlphabetic c = false →
      Stuck K (c :: rest) 0 (.unknownSymbol c)
  | unterminated {c : Char} {rest : List Char} {tag : Tag} {amount : Option K} :
      Stands c tag amount → ')' ∉ rest → Stuck K (c :: '(' :: rest) c.utf8Size .unterminated
  | badAmount {c : Char} {literal rest : List Char} {tag : Tag} {amount : Option K} {cause : NumeralError} :
      Stands c tag amount → ')' ∉ literal → Numeral.read (K := K) (Text.trim literal) = .error cause →
      Stuck K (c :: '(' :: (literal ++ ')' :: rest)) (c.utf8Size + 1) (.badAmount (Text.trim literal) cause)

variable [Scalar K] [Numeral K]

/-- A text that is not empty begins with an item or is stuck. -/
theorem item_or_stuck (c : Char) (cs : List Char) :
    (∃ (xs : List (Symbol K)) (rest : List Char), Item (c :: cs) xs rest) ∨
      ∃ bytes cause, Stuck K (c :: cs) bytes cause := by
  cases hblank : Text.isBlank c with
  | true => exact .inl ⟨[], cs, .blank hblank⟩
  | false =>
    cases hx : symbol? (K := K) c with
    | none =>
      obtain ⟨hc, hletter⟩ := symbol?_eq_none_iff.mp hx
      exact .inr ⟨_, _, .unknown hblank hc hletter⟩
    | some x =>
      have hstands := symbol?_eq_some_iff.mp hx
      by_cases hparen : cs.head? = some '('
      · obtain ⟨ds, rfl⟩ := List.head?_eq_some_iff.mp hparen
        cases hclose : closing? ds with
        | none => exact .inr ⟨_, _, .unterminated hstands (closing?_eq_none_iff.mp hclose)⟩
        | some p =>
          obtain ⟨hds, hliteral⟩ := closing?_eq_some_iff.mp (show closing? ds = some (p.1, p.2) from hclose)
          subst hds
          cases hread : Numeral.read (K := K) (Text.trim p.1) with
          | ok a => exact .inl ⟨_, _, .applied hstands hliteral hread⟩
          | error cause => exact .inr ⟨_, _, .badAmount hstands hliteral hread⟩
      · exact .inl ⟨_, _, .bare hstands hparen⟩

theorem Item.length_lt {cs rest : List Char} {xs : List (Symbol K)} (h : Item cs xs rest) :
    rest.length < cs.length := by
  cases h <;> grind

/-! ## The parser follows the items -/

theorem parseFrom_of_symbol {c : Char} {cs rest : List Char} {tag : Tag} {default amount : Option K}
    {offset bytes : Nat} (hstands : Stands c tag default)
    (hamount : amount? (offset + c.utf8Size) cs = .ok (amount, bytes, rest)) :
    parseFrom offset (c :: cs) =
      (parseFrom (offset + c.utf8Size + bytes) rest).map (⟨tag, amount.or default⟩ :: ·) := by
  have hx : symbol? c = some (⟨tag, default⟩ : Symbol K) := symbol?_eq_some_iff.mpr hstands
  rw [parseFrom]
  simp only [hstands.not_isBlank, Bool.false_eq_true, if_false, hx]
  split
  · rename_i h
    cases h.symm.trans hamount
  · rename_i h
    obtain ⟨rfl, rfl, rfl⟩ : _ ∧ _ ∧ _ := by simpa using hamount.symm.trans h
    cases parseFrom (K := K) (offset + c.utf8Size + bytes) rest <;> rfl

theorem parseFrom_of_amount_error {c : Char} {cs : List Char} {tag : Tag} {default : Option K} {offset : Nat}
    {e : ParseError} (hstands : Stands c tag default) (hamount : amount? (K := K) (offset + c.utf8Size) cs = .error e) :
    parseFrom (K := K) offset (c :: cs) = .error e := by
  have hx : symbol? c = some (⟨tag, default⟩ : Symbol K) := symbol?_eq_some_iff.mpr hstands
  rw [parseFrom]
  simp only [hstands.not_isBlank, Bool.false_eq_true, if_false, hx]
  split
  · rename_i h
    cases h.symm.trans hamount
    rfl
  · rename_i h
    cases h.symm.trans hamount

/-- The parser follows an item. -/
theorem parseFrom_of_item {cs rest : List Char} {xs : List (Symbol K)} (h : Item cs xs rest) :
    ∃ bytes, byteSize cs = bytes + byteSize rest ∧
      ∀ offset, parseFrom offset cs = (parseFrom (offset + bytes) rest).map (xs ++ ·) := by
  cases h with
  | @blank c rest hblank =>
    refine ⟨c.utf8Size, rfl, fun offset => ?_⟩
    rw [parseFrom]
    simp only [hblank, if_true]
    cases parseFrom (K := K) (offset + c.utf8Size) rest <;> rfl
  | @bare c rest tag amount hstands hparen =>
    refine ⟨c.utf8Size, rfl, fun offset => ?_⟩
    have hamount : amount? (K := K) (offset + c.utf8Size) rest = .ok (none, 0, rest) := by
      cases rest with
      | nil => rfl
      | cons d ds =>
        have hd : d ≠ '(' := fun e => hparen (by rw [e, List.head?_cons])
        rw [amount?, if_neg hd]
    exact parseFrom_of_symbol hstands hamount
  | @applied c literal rest tag amount a hstands hliteral hread =>
    refine ⟨c.utf8Size + (byteSize literal + 2), ?_, fun offset => ?_⟩
    · simp only [byteSize, byteSize_append, utf8Size_open, utf8Size_close]
      omega
    · have hamount : amount? (offset + c.utf8Size) ('(' :: (literal ++ ')' :: rest)) =
          .ok (some a, byteSize literal + 2, rest) := by
        rw [amount?, if_pos rfl, closing?_eq_some_iff.mpr ⟨rfl, hliteral⟩]
        simp only [hread]
      rw [parseFrom_of_symbol hstands hamount, Nat.add_assoc]
      rfl

/-- The parser fails where it is stuck. -/
theorem parseFrom_of_stuck {cs : List Char} {bytes : Nat} {cause : ParseCause} (h : Stuck K cs bytes cause)
    (offset : Nat) : parseFrom (K := K) offset cs = .error ⟨offset + bytes, cause⟩ := by
  cases h with
  | unknown hblank hc hletter =>
    rw [parseFrom]
    simp only [hblank, Bool.false_eq_true, if_false, symbol?_eq_none_iff.mpr ⟨hc, hletter⟩, Nat.add_zero]
  | unterminated hstands hclose =>
    refine parseFrom_of_amount_error hstands ?_
    rw [amount?, if_pos rfl, closing?_eq_none_iff.mpr hclose]
  | badAmount hstands hliteral hread =>
    refine parseFrom_of_amount_error hstands ?_
    rw [amount?, if_pos rfl, closing?_eq_some_iff.mpr ⟨rfl, hliteral⟩]
    simp only [hread, Nat.add_assoc]

theorem parseFrom_of_reads {cs rest : List Char} {xs : List (Symbol K)} (h : Reads cs xs rest) :
    ∃ bytes, byteSize cs = bytes + byteSize rest ∧
      ∀ offset, parseFrom offset cs = (parseFrom (offset + bytes) rest).map (xs ++ ·) := by
  induction h with
  | done rest =>
    refine ⟨0, (Nat.zero_add _).symm, fun offset => ?_⟩
    rw [Nat.add_zero]
    cases parseFrom (K := K) offset rest <;> rfl
  | item hitem _ ih =>
    obtain ⟨m, hm, hfirst⟩ := parseFrom_of_item hitem
    obtain ⟨n, hn, hrest⟩ := ih
    refine ⟨m + n, by omega, fun offset => ?_⟩
    rw [hfirst, hrest, Nat.add_assoc]
    cases parseFrom (K := K) (offset + (m + n)) _ <;> simp [Except.map]

/-- Items exhaust a text, or it is stuck behind some. -/
theorem reads_or_stuck (K : Type) [Scalar K] [Numeral K] (cs : List Char) :
    (∃ xs : List (Symbol K), Reads cs xs []) ∨
      ∃ (xs : List (Symbol K)) (rest : List Char) (bytes : Nat) (cause : ParseCause),
        Reads cs xs rest ∧ Stuck K rest bytes cause := by
  obtain ⟨n, hn⟩ : ∃ n, n = cs.length := ⟨_, rfl⟩
  induction n using Nat.strongRecOn generalizing cs with
  | ind n ih =>
    cases cs with
    | nil => exact .inl ⟨[], .done []⟩
    | cons c cs =>
      rcases item_or_stuck (K := K) c cs with ⟨xs, next, hitem⟩ | ⟨bytes, cause, hstuck⟩
      · rcases ih next.length (hn ▸ hitem.length_lt) next rfl with ⟨ys, h⟩ | ⟨ys, rest, bytes, cause, h, hstuck⟩
        · exact .inl ⟨xs ++ ys, .item hitem h⟩
        · exact .inr ⟨xs ++ ys, rest, bytes, cause, .item hitem h, hstuck⟩
      · exact .inr ⟨[], c :: cs, bytes, cause, .done _, hstuck⟩

theorem parseFrom_of_reads_nil {cs : List Char} {xs : List (Symbol K)} (h : Reads cs xs []) (offset : Nat) :
    parseFrom offset cs = .ok xs := by
  obtain ⟨bytes, -, hp⟩ := parseFrom_of_reads h
  rw [hp, parseFrom, Except.map, List.append_nil]

theorem parseFrom_of_reads_stuck {cs rest : List Char} {xs : List (Symbol K)} {bytes : Nat} {cause : ParseCause}
    (h : Reads cs xs rest) (hstuck : Stuck K rest bytes cause) (offset : Nat) :
    ∃ before, byteSize cs = before + byteSize rest ∧
      parseFrom (K := K) offset cs = .error ⟨offset + before + bytes, cause⟩ := by
  obtain ⟨before, hbytes, hp⟩ := parseFrom_of_reads h
  exact ⟨before, hbytes, by rw [hp, parseFrom_of_stuck hstuck, Except.map]⟩

/-! ## The text before an item -/

/-- An item does not depend on what follows it, but for its first character. -/
theorem Item.cut {cs mid rest : List Char} {xs : List (Symbol K)} (h : Item cs xs (mid ++ rest)) :
    ∃ front, cs = front ++ (mid ++ rest) ∧ Item (front ++ mid) xs mid := by
  generalize htail : mid ++ rest = tail at h
  cases h with
  | @blank c tail hblank => exact ⟨[c], rfl, .blank hblank⟩
  | @bare c tail tag amount hstands hparen =>
    refine ⟨[c], rfl, .bare hstands fun (h : mid.head? = some '(') => hparen ?_⟩
    rw [← htail, List.head?_append, h]
    rfl
  | @applied c literal tail tag amount a hstands hliteral hread =>
    refine ⟨c :: '(' :: (literal ++ [')']), by simp, ?_⟩
    have happlied : Item (c :: '(' :: (literal ++ ')' :: mid)) [⟨tag, some a⟩] mid := .applied hstands hliteral hread
    simpa using happlied

/-- The items before a rest exhaust the text before it. -/
theorem Reads.cut {cs rest : List Char} {xs : List (Symbol K)} (h : Reads cs xs rest) :
    ∃ before, cs = before ++ rest ∧ Reads before xs [] := by
  induction h with
  | done rest => exact ⟨[], rfl, .done []⟩
  | item hitem _ ih =>
    obtain ⟨mid, rfl, hmid⟩ := ih
    obtain ⟨front, rfl, hfront⟩ := hitem.cut
    exact ⟨front ++ mid, by rw [List.append_assoc], .item hfront hmid⟩

/-- The bytes after which it shows that a text is stuck are those of its first characters. -/
theorem Stuck.boundary {cs : List Char} {bytes : Nat} {cause : ParseCause} (h : Stuck K cs bytes cause) :
    ∃ front back, cs = front ++ back ∧ byteSize front = bytes := by
  cases h with
  | unknown => exact ⟨[], _, rfl, rfl⟩
  | @unterminated c rest => exact ⟨[c], _, rfl, by simp [byteSize]⟩
  | @badAmount c literal rest => exact ⟨[c, '('], _, rfl, by simp [byteSize, utf8Size_open]⟩

/-! ## The parser and the grammar -/

theorem parse_of_reads {text : String} {xs : List (Symbol K)} (h : Reads text.toList xs []) : parse text = .ok xs :=
  parseFrom_of_reads_nil h 0

/-- A text that is stuck behind items is not read, but the text before that place is. -/
theorem parse_of_stuck {text : String} {rest : List Char} {xs : List (Symbol K)} {bytes : Nat} {cause : ParseCause}
    (h : Reads text.toList xs rest) (hstuck : Stuck K rest bytes cause) :
    ∃ before : String, text.toList = before.toList ++ rest ∧ parse before = .ok xs ∧
      parse (K := K) text = .error ⟨before.utf8ByteSize + bytes, cause⟩ ∧
      (⟨before.utf8ByteSize + bytes⟩ : String.Pos.Raw).IsValid text := by
  obtain ⟨front, hfront, hxs⟩ := h.cut
  obtain ⟨skipped, hskipped, hparse⟩ := parseFrom_of_reads_stuck h hstuck 0
  obtain ⟨shown, back, hshown, hbytes⟩ := hstuck.boundary
  have hsize : skipped = byteSize front := by
    rw [hfront, byteSize_append] at hskipped
    omega
  refine ⟨String.ofList front, ?_, parse_of_reads ?_, ?_, ?_⟩
  · rw [String.toList_ofList, hfront]
  · rwa [String.toList_ofList]
  · rw [parse, hparse, ← byteSize_toList, String.toList_ofList, hsize, Nat.zero_add]
  · refine String.Pos.Raw.isValid_iff_exists_append.mpr
      ⟨String.ofList (front ++ shown), String.ofList back, ?_, ?_⟩
    · rw [← String.ofList_append, List.append_assoc, ← hshown, ← hfront, String.ofList_toList]
    · rw [String.rawEndPos, ← byteSize_toList, ← byteSize_toList, String.toList_ofList, String.toList_ofList,
        byteSize_append, hbytes]

theorem reads_of_parse {text : String} {xs : List (Symbol K)} (h : parse text = .ok xs) :
    Reads text.toList xs [] := by
  rcases reads_or_stuck K text.toList with ⟨ys, hys⟩ | ⟨ys, rest, bytes, cause, hys, hstuck⟩
  · obtain rfl := Except.ok.inj (h.symm.trans (parse_of_reads hys))
    exact hys
  · obtain ⟨_, -, -, herror, -⟩ := parse_of_stuck hys hstuck
    cases h.symm.trans herror

/-- **The parser accepts the grammar.** A text is read as the symbols that its items write when items exhaust it. Any
other text is stuck behind items; the text before that place is read as the symbols of these items. The error has the
cause for which the text is stuck there, and its offset counts the bytes up to the place where this shows, which lies
between two characters. -/
theorem parse_grammar (text : String) :
    (∀ xs : List (Symbol K), parse text = .ok xs ↔ Reads text.toList xs []) ∧
    ∀ e : ParseError, parse (K := K) text = .error e ↔
      ∃ (before : String) (rest : List Char) (xs : List (Symbol K)) (bytes : Nat),
        text.toList = before.toList ++ rest ∧ Reads text.toList xs rest ∧ parse before = .ok xs ∧
        Stuck K rest bytes e.cause ∧ e.offset = before.utf8ByteSize + bytes ∧
        (⟨e.offset⟩ : String.Pos.Raw).IsValid text := by
  refine ⟨fun xs => ⟨reads_of_parse, parse_of_reads⟩, fun e => ⟨fun h => ?_, ?_⟩⟩
  · rcases reads_or_stuck K text.toList with ⟨ys, hys⟩ | ⟨ys, rest, bytes, cause, hys, hstuck⟩
    · cases h.symm.trans (parse_of_reads hys)
    · obtain ⟨before, hbefore, hread, herror, hvalid⟩ := parse_of_stuck hys hstuck
      obtain rfl := Except.error.inj (h.symm.trans herror)
      exact ⟨before, rest, ys, bytes, hbefore, hys, hread, hstuck, rfl, hvalid⟩
  · rintro ⟨before, rest, xs, bytes, hbefore, hxs, -, hstuck, hoffset, -⟩
    obtain ⟨front, hfront, -, herror, -⟩ := parse_of_stuck hxs hstuck
    have hsame : front = before := String.toList_inj.mp (List.append_cancel_right (hfront.symm.trans hbefore))
    rw [herror, hsame, ← hoffset]

-- The letter takes two bytes, and behind the blank no parenthesis belongs to it.
example : parse (K := Float) "é (3)" = .error ⟨3, .unknownSymbol '('⟩ := by decide +kernel

end Foliage.Notation
