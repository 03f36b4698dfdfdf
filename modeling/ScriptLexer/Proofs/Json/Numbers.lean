import ScriptLexer.Proofs.Json.Render

/-
  Numbers read back from JSON. The reader takes a number apart into the digits before the point,
  those behind it and the exponent; of a number that was written it finds again what was put
  together (`JsonReader.number_writeDecimal`), and what comes behind the number is left
  (`JsonReader.scalar_write`, `JsonReader.scalar_whole`).
-/

namespace ScriptLexer

namespace JsonReader

open Json (EndsWord)

/-! ## Parts of a number -/

/-- Digits that can stand before the point: a lone zero, or no zero in front. -/
inductive Leads : List Char → Prop
  | zero : Leads ['0']
  | nonzero {c : Char} {more : List Char} (digits : ∀ d ∈ c :: more, d.isDigit = true)
    (head : c ≠ '0') : Leads (c :: more)

theorem Leads.digits {ds : List Char} (leads : Leads ds) : ∀ c ∈ ds, c.isDigit = true := by
  cases leads with
  | zero => exact List.forall_mem_singleton.mpr rfl
  | nonzero digits _ => exact digits

theorem leads_digit {c : Char} (digit : c.isDigit = true) : Leads [c] := by
  by_cases zero : c = '0'
  · rw [zero]
    exact .zero
  · exact .nonzero (List.forall_mem_singleton.mpr digit) zero

theorem leads_toDigits (n : Nat) : Leads (Nat.toDigits 10 n) := by
  by_cases zero : n = 0
  · rw [zero]
    exact .zero
  · obtain ⟨c, more, e, head⟩ := exists_toDigits (Nat.pos_of_ne_zero zero)
    have digits := NumberLayout.isDigit_toDigits n
    rw [e] at digits ⊢
    exact .nonzero digits head

/-- A character with which no number goes on. -/
theorem of_endsWord {a : List Char} (ends : EndsWord a) :
    ∀ c ∈ a.head?, c.isDigit = false ∧ c ≠ '.' ∧ c ≠ 'e' ∧ c ≠ 'E' := by
  intro c mem
  have outside := ends c mem
  refine ⟨?_, ?_, ?_, ?_⟩
  · rw [← Bool.not_eq_true]
    intro digit
    rw [Json.isWordChar, digit, Bool.true_or, Bool.true_or] at outside
    contradiction
  all_goals
    rintro rfl
    exact absurd outside (by decide)

section Parts

variable {ds a : List Char} (all : ∀ c ∈ ds, c.isDigit = true)
  (ends : ∀ c ∈ a.head?, c.isDigit = false)

include all ends

theorem digits_append : digits (ds ++ a) = (ds, a) := by
  rw [digits, takeWhile_split all ends, dropWhile_split all ends]

theorem fractionPart_point (some : ds ≠ []) : fractionPart ('.' :: (ds ++ a)) = (ds, a) := by
  rw [fractionPart, digits_append all ends, if_neg some]

end Parts

theorem Leads.wholePart?_append {ds a : List Char} (leads : Leads ds)
    (ends : ∀ c ∈ a.head?, c.isDigit = false) : wholePart? (ds ++ a) = some (ds, a) := by
  cases leads with
  | zero => rfl
  | @nonzero c more all head =>
    have split := digits_append all ends
    rw [List.cons_append] at split ⊢
    unfold wholePart?
    split
    · next first => exact absurd (List.cons.inj first).1 head
    · rw [split, if_neg (List.cons_ne_nil c more)]

theorem fractionPart_of_ne {a : List Char} (ends : ∀ c ∈ a.head?, c ≠ '.') :
    fractionPart a = ([], a) := by
  unfold fractionPart
  split
  · next rest => exact absurd rfl (ends '.' rfl)
  · rfl

theorem exponentPart_of_ne {a : List Char} (ends : ∀ c ∈ a.head?, c ≠ 'e' ∧ c ≠ 'E') :
    exponentPart a = (none, a) := by
  unfold exponentPart
  split
  · next mark rest => exact if_neg (not_or.mpr (ends mark rfl))
  · rfl

/-- An exponent is read as it was written. -/
theorem exponentPart_writeExponent {layout : NumberLayout} (regular : layout.Regular) (e : Int)
    {a : List Char} (ends : ∀ c ∈ a.head?, c.isDigit = false) :
    exponentPart ((layout.writeExponent e).toList ++ a) = (some e, a) := by
  have value (k : Nat) := wholeOfDigits_padded (show 1 < 10 by decide) (by decide) k e.natAbs
  have all (k : Nat) := List.forall_mem_append.mpr
    ⟨Decimal.isDigit_zeros k, NumberLayout.isDigit_toDigits e.natAbs⟩
  have some (k : Nat) : List.replicate k '0' ++ Nat.toDigits 10 e.natAbs ≠ [] :=
    List.append_ne_nil_of_right_ne_nil _ Nat.toDigits_ne_nil
  rw [NumberLayout.writeExponent, regular.exponentMark]
  simp only [String.toList_append, Nat.repr_eq_ofList_toDigits, String.toList_ofList]
  generalize layout.exponentWidth - _ = k
  by_cases negative : e < 0
  · have signed : -(e.natAbs : Int) = e := by omega
    rw [if_pos negative]
    show exponentPart ('e' :: '-' :: ((List.replicate k '0' ++ Nat.toDigits 10 e.natAbs) ++ a)) = _
    simp only [exponentPart, digits_append (all k) ends, if_neg (some k), value, true_or, if_true,
      signed]
  · have unsigned : (e.natAbs : Int) = e := by omega
    rw [if_neg negative]
    show exponentPart ('e' :: '+' :: ((List.replicate k '0' ++ Nat.toDigits 10 e.natAbs) ++ a)) = _
    simp only [exponentPart, digits_append (all k) ends, if_neg (some k), value, true_or, if_true,
      Bool.false_eq_true, if_false, unsigned]

/-! ## Whole numbers and decimals -/

/-- A number is taken apart into the digits in front, those behind a point and an exponent. -/
theorem number_of_parts (negative : Bool) {ds behind fraction more a : List Char}
    {exponent : Option Int} (leads : Leads ds) (ends : ∀ c ∈ behind.head?, c.isDigit = false)
    (point : fractionPart behind = (fraction, more)) (mark : exponentPart more = (exponent, a)) :
    number negative (ds ++ behind) =
      if fraction = [] ∧ exponent.isNone then
        if wholeDigitLimit < ds.length then .error (.tooManyDigits ds.length)
        else .ok (.whole (if negative then -(wholeOfDigits 10 ds : Int) else wholeOfDigits 10 ds),
          a)
      else .ok (.number (Decimal.toBinary64 negative
        ⟨wholeOfDigits 10 (ds ++ fraction), exponent.getD 0 - fraction.length⟩), a) := by
  rw [number, leads.wholePart?_append ends]
  dsimp only
  rw [point]
  dsimp only
  rw [mark]

section Number

variable (negative : Bool) {a : List Char} (ends : EndsWord a)

include ends

theorem number_whole {ds : List Char} (leads : Leads ds) (short : ds.length ≤ wholeDigitLimit) :
    number negative (ds ++ a) =
      .ok (.whole (if negative then -(wholeOfDigits 10 ds : Int) else wholeOfDigits 10 ds), a) := by
  have outside := of_endsWord ends
  rw [number_of_parts negative leads (fun c mem => (outside c mem).1)
    (fractionPart_of_ne fun c mem => (outside c mem).2.1)
    (exponentPart_of_ne fun c mem => (outside c mem).2.2), if_pos ⟨rfl, rfl⟩,
    if_neg (Nat.not_lt.mpr short)]

/-- A number with a point and no exponent. -/
theorem number_point {whole fraction : List Char} (leads : Leads whole)
    (all : ∀ c ∈ fraction, c.isDigit = true) (some : fraction ≠ []) :
    number negative ((whole ++ '.' :: fraction) ++ a) =
      .ok (.number ((Decimal.ofNumeral (whole ++ '.' :: fraction)).toBinary64 negative), a) := by
  have outside := of_endsWord ends
  have point : ∀ c ∈ ('.' :: (fraction ++ a)).head?, c.isDigit = false := by
    intro c mem
    cases mem
    rfl
  rw [List.append_assoc, List.cons_append, number_of_parts negative leads point
    (fractionPart_point all (fun c mem => (outside c mem).1) some)
    (exponentPart_of_ne fun c mem => (outside c mem).2.2), if_neg fun plain => some plain.1,
    Option.getD_none, Int.zero_sub, Decimal.ofNumeral_plain leads.digits all]

/-- A number with an exponent. -/
theorem number_exponent {layout : NumberLayout} (regular : layout.Regular) {ds : List Char}
    (all : ∀ c ∈ ds, c.isDigit = true) (some : ds ≠ []) (e : Int) :
    number negative (Decimal.pointed ds ++ (layout.writeExponent e).toList ++ a) =
      .ok (.number ((Decimal.mk (wholeOfDigits 10 ds) (e - ((ds.length : Int) - 1))).toBinary64
        negative), a) := by
  have outside := of_endsWord ends
  have exponent := exponentPart_writeExponent regular e fun c mem => (outside c mem).1
  obtain ⟨rest, written, -⟩ := regular.exponentValue_writeExponent e
  rw [written] at exponent ⊢
  have mark : ∀ c ∈ ('e' :: rest ++ a).head?, c.isDigit = false ∧ c ≠ '.' := by
    intro c mem
    cases mem
    exact ⟨rfl, by decide⟩
  rw [List.append_assoc]
  match ds with
  | [] => exact absurd rfl some
  | [c] =>
    have digit := all c List.mem_cons_self
    have read := number_of_parts negative (leads_digit digit) (fun c mem => (mark c mem).1)
      (fractionPart_of_ne fun c mem => (mark c mem).2) exponent
    show number negative ([c] ++ ('e' :: rest ++ a)) = _
    rw [read]
    simp
  | c :: d :: ds =>
    obtain ⟨digit, others⟩ := List.forall_mem_cons.mp all
    have point : ∀ c ∈ ('.' :: ((d :: ds) ++ ('e' :: rest ++ a))).head?, c.isDigit = false := by
      intro c mem
      cases mem
      rfl
    have read := number_of_parts negative (leads_digit digit) point
      (fractionPart_point others (fun c mem => (mark c mem).1) (List.cons_ne_nil d ds)) exponent
    show number negative ([c] ++ ('.' :: ((d :: ds) ++ ('e' :: rest ++ a)))) = _
    rw [read]
    simp

/-- A decimal is read as it was written. -/
theorem number_writeDecimal {layout : NumberLayout} (regular : layout.Regular) (d : Decimal) :
    number negative ((layout.writeDecimal d).toList ++ a) =
      .ok (.number (d.toBinary64 negative), a) := by
  have read := regular.ofNumeral_writeDecimal negative d
  have digits := NumberLayout.isDigit_toDigits d.digits
  have value := wholeOfDigits_toDigits (show 1 < 10 by decide) (by decide) d.digits
  have zeros := Decimal.isDigit_zeros
  revert read
  unfold NumberLayout.writeDecimal
  rw [regular.wholeTail]
  split
  · next zero =>
    intro read
    exact (number_point negative ends .zero (zeros 1) (List.cons_ne_nil _ _)).trans
      (by rw [← read]; rfl)
  next nonzero =>
  obtain ⟨c, more, e, head⟩ := exists_toDigits (Nat.pos_of_ne_zero nonzero)
  dsimp only
  rw [e] at digits value ⊢
  split
  · next plain =>
    split
    · next whole =>
      intro read
      rw [String.toList_append, String.toList_ofList] at read ⊢
      have leads : Leads (c :: more ++ List.replicate d.exponent.toNat '0') :=
        .nonzero (List.forall_mem_append.mpr ⟨digits, zeros _⟩) head
      rw [← read]
      exact number_point negative ends leads (zeros 1) (List.cons_ne_nil _ _)
    next fraction =>
    split
    · next large =>
      intro read
      rw [String.toList_ofList] at read ⊢
      rw [← read]
      refine number_point negative ends (.nonzero ?_ head) ?_ ?_
      · exact fun c mem => digits c (List.mem_of_mem_take (i := _ + 1) mem)
      · exact fun c mem => digits c (List.mem_of_mem_drop mem)
      · rw [Ne, List.drop_eq_nil_iff]
        omega
    · next small =>
      intro read
      rw [String.toList_ofList] at read ⊢
      rw [← read]
      refine number_point negative ends .zero (List.forall_mem_append.mpr ⟨zeros _, digits⟩) ?_
      exact List.append_ne_nil_of_right_ne_nil _ (List.cons_ne_nil _ _)
  · next scientific =>
    intro read
    rw [String.toList_append, String.toList_ofList]
    refine (number_exponent negative ends regular digits (List.cons_ne_nil _ _) _).trans ?_
    have exponent : d.exponent + ((c :: more).length : Int) - 1 -
        (((c :: more).length : Int) - 1) = d.exponent := by omega
    rw [value, exponent]

end Number

/-! ## Values without parts -/

/-- No word stands in front of a digit, with or without a minus. -/
theorem words_of_digit {c : Char} (digit : c.isDigit = true) (rest : List Char) :
    ∀ w ∈ words, w.1.toList.isPrefixOf (c :: rest) = false ∧
      w.1.toList.isPrefixOf ('-' :: c :: rest) = false := by
  have apart {d : Char} (letter : d.isDigit = false) : (d == c) = false := by
    rw [beq_eq_false_iff_ne]
    rintro rfl
    rw [letter] at digit
    contradiction
  have letter (d : Char) (ds : List Char) (letter : d.isDigit = false) :
      (d :: ds).isPrefixOf (c :: rest) = false := by
    rw [List.isPrefixOf_cons_cons, apart letter, Bool.false_and]
  unfold words
  simp only [List.forall_mem_cons]
  exact ⟨⟨letter 'n' _ rfl, rfl⟩, ⟨letter 't' _ rfl, rfl⟩, ⟨letter 'f' _ rfl, rfl⟩,
    ⟨letter 'N' _ rfl, rfl⟩, ⟨letter 'I' _ rfl, rfl⟩, ⟨letter '-' _ rfl, letter 'I' _ rfl⟩,
    List.forall_mem_nil _⟩

/-- A text that is no word is a number or a string. -/
theorem words_eq_none {text : List Char} (h : ∀ w ∈ words, w.1.toList.isPrefixOf text = false) :
    words.findSome? (fun w => (after? w.1.toList text).map fun rest => (w.2, rest)) = none := by
  rw [List.findSome?_eq_none_iff]
  intro w mem
  rw [after?, if_neg (Bool.eq_false_iff.mp (h w mem)), Option.map_none]

section Scalar

variable {text : List Char} (head : ∃ c rest, text = c :: rest ∧ c.isDigit = true)

include head

theorem scalar_number : scalar text = number false text := by
  obtain ⟨c, rest, rfl, digit⟩ := head
  have apart {d : Char} (other : d.isDigit = false) {more : List Char} : c :: rest ≠ d :: more := by
    intro same
    rw [(List.cons.inj same).1, other] at digit
    contradiction
  rw [scalar, words_eq_none fun w mem => (words_of_digit digit rest w mem).1]
  · exact fun _ => apart rfl
  · exact fun _ => apart rfl

theorem scalar_minus : scalar ('-' :: text) = number true text := by
  obtain ⟨c, rest, rfl, digit⟩ := head
  rw [scalar, words_eq_none fun w mem => (words_of_digit digit rest w mem).2]

end Scalar

/-- What a text begins with, it begins with as well when there is more behind it. -/
theorem head_append {first : Char → Prop} {text : List Char}
    (head : ∃ c rest, text = c :: rest ∧ first c) (a : List Char) :
    ∃ c rest, text ++ a = c :: rest ∧ first c := by
  obtain ⟨c, rest, rfl, here⟩ := head
  exact ⟨c, rest ++ a, rfl, here⟩

/-- The sign of a decimal goes with it through rounding. -/
theorem toBinary64_sign {d : Decimal} {rank : Nat} (h : d.toBinary64 false = .ofRank false rank)
    (negative : Bool) : d.toBinary64 negative = .ofRank negative rank := by
  rw [Decimal.toBinary64_eq] at h ⊢
  unfold Binary64.ofRatio Binary64.ofScaled at h ⊢
  generalize Binary64.nearestRank _ _ = nearest at h ⊢
  simp only [Binary64.ofRank, Binary64.signed.injEq, true_and, Fin.mk.injEq] at h ⊢
  exact h

/-- The shortest decimal is read as the number, with its sign. -/
theorem shortest_toBinary64_signed (negative : Bool) (rank : Fin (Binary64.infinityRank + 1)) :
    (Binary64.shortest rank).toBinary64 negative = .signed negative rank := by
  rw [toBinary64_sign (Binary64.shortest_toBinary64 rank) negative, Binary64.ofRank]
  exact congrArg _ (Fin.ext (Nat.min_eq_left (Nat.lt_succ_iff.mp rank.isLt)))

/-- Any number is read as it was written. -/
theorem scalar_write (x : Binary64) {a : List Char} (ends : EndsWord a) :
    scalar ((Json.layout.write x).toList ++ a) = .ok (.number x, a) := by
  have regular := Json.regular_layout
  match x with
  | .nan => rfl
  | .signed negative rank =>
    by_cases finite : rank.val < Binary64.infinityRank
    · have read (negative : Bool) :=
        number_writeDecimal negative ends regular (Binary64.shortest rank)
      have head := head_append (regular.isNumeral_writeDecimal (Binary64.shortest rank)).head a
      cases negative with
      | false =>
        rw [NumberLayout.write_of_finite _ finite, scalar_number head, read,
          shortest_toBinary64_signed]
      | true =>
        rw [NumberLayout.write_negative, NumberLayout.write_of_finite _ finite, List.cons_append,
          scalar_minus head, read, shortest_toBinary64_signed]
    · have last : rank = ⟨Binary64.infinityRank, Nat.lt_succ_self _⟩ := by
        have := rank.isLt
        exact Fin.ext (by dsimp only; omega)
      cases negative with
      | false =>
        rw [NumberLayout.write_of_infinite _ finite, last]
        rfl
      | true =>
        rw [NumberLayout.write_negative, NumberLayout.write_of_infinite _ finite, last]
        rfl

/-- A whole number is read as it was written, if it is not too long to be read. -/
theorem scalar_whole {n : Int} (short : n.natAbs < 10 ^ wholeDigitLimit) {a : List Char}
    (ends : EndsWord a) : scalar ((toString n).toList ++ a) = .ok (.whole n, a) := by
  have digits (n : Nat) := NumberLayout.isDigit_toDigits n
  have value (n : Nat) := wholeOfDigits_toDigits (show 1 < 10 by decide) (by decide) n
  have length {n : Nat} (short : n < 10 ^ wholeDigitLimit) :
      (Nat.toDigits 10 n).length ≤ wholeDigitLimit :=
    (Nat.length_toDigits_le_iff (by decide) (by decide)).mpr short
  have head (n : Nat) : ∃ c rest, Nat.toDigits 10 n ++ a = c :: rest ∧ c.isDigit = true := by
    obtain ⟨c, more, e⟩ := List.exists_cons_of_ne_nil (Nat.toDigits_ne_nil (n := n) (b := 10))
    exact head_append ⟨c, more, e, digits n c (e ▸ List.mem_cons_self)⟩ a
  cases n with
  | ofNat n =>
    show scalar (n.repr.toList ++ a) = _
    rw [Nat.repr_eq_ofList_toDigits, String.toList_ofList, scalar_number (head n),
      number_whole false ends (leads_toDigits n) (length short), value]
    rfl
  | negSucc n =>
    show scalar (("-" ++ n.succ.repr).toList ++ a) = _
    rw [String.toList_append, Nat.repr_eq_ofList_toDigits, String.toList_ofList,
      String.toList_ofList]
    show scalar ('-' :: (Nat.toDigits 10 n.succ ++ a)) = _
    rw [scalar_minus (head n.succ),
      number_whole true ends (leads_toDigits n.succ) (length short), value]
    rfl

end JsonReader

end ScriptLexer
