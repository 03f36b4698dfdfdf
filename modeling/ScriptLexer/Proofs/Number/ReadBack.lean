import ScriptLexer.Number.Layout
import ScriptLexer.Proofs.Number.Digits
import ScriptLexer.Proofs.Number.Rounding
import ScriptLexer.Proofs.Text.CharClass
import ScriptLexer.Proofs.Text.Split

/-
  Reading numbers back. The shortest decimal of a number is rounded to that number
  (`Binary64.shortest_toBinary64`), and it is what its text says, however it is laid out
  (`NumberLayout.Regular.ofNumeral_writeDecimal`). So no two numbers are written alike
  (`NumberLayout.Regular.write_inj`).
-/

namespace ScriptLexer

/-! ## The shortest decimal -/

theorem Decimal.trim_toBinary64 (negative : Bool) (d : Decimal) :
    d.trim.toBinary64 negative = d.toBinary64 negative := by
  have go (fuel : Nat) (d : Decimal) :
      (trim.go fuel d).toBinary64 negative = d.toBinary64 negative := by
    induction fuel generalizing d with
    | zero => rfl
    | succ fuel ih =>
      unfold trim.go
      split
      · next even =>
        have tens : d.digits / 10 * 10 ^ 1 = d.digits := by omega
        have shift := toBinary64_shift negative ⟨d.digits / 10, d.exponent + 1⟩ 1
        rw [tens, Int.natCast_one, Int.add_sub_cancel] at shift
        rw [ih, ← shift]
      · rfl
  exact go _ d

namespace Binary64

theorem nearestRank_power (m k : Nat) :
    nearestRank (m * 5 ^ k * 2 ^ k) (10 ^ k) = nearestRank m 1 := by
  apply nearestRank_congr (Nat.pow_pos (by decide)) Nat.one_pos
  rw [Nat.mul_one, Nat.mul_assoc, ← Nat.mul_pow]

theorem exactDecimal_toBinary64 (rank : Nat) :
    (exactDecimal (magnitude rank)).toBinary64 false = ofRank false rank := by
  obtain ⟨unit, size⟩ : ∃ unit, unit = 1074 := ⟨_, rfl⟩
  have whole : (-1074 : Int).toNat = 0 := rfl
  have fraction : (- -1074 : Int).toNat = unit := by omega
  rw [Decimal.toBinary64_eq, exactDecimal, ofRatio, ofScaled, whole, fraction, ← size,
    Nat.pow_zero, Nat.mul_one]
  exact congrArg _ ((nearestRank_power _ unit).trans (nearestRank_magnitude rank))

theorem onGrid?_toBinary64 {rank : Nat} {exponent : Int} {d : Decimal}
    (found : onGrid? rank exponent = some d) : d.toBinary64 false = ofRank false rank := by
  unfold onGrid? at found
  dsimp only at found
  split at found
  · next low high =>
    cases found
    split
    · exact eq_of_beq high
    · exact eq_of_beq low
  · next low _ =>
    cases found
    exact eq_of_beq low
  · next _ high =>
    cases found
    exact eq_of_beq high
  · contradiction

/-- The shortest decimal is rounded to the number. -/
theorem shortest_toBinary64 (rank : Nat) :
    (shortest rank).toBinary64 false = ofRank false rank := by
  unfold shortest
  rw [Decimal.trim_toBinary64]
  cases found : (List.range 17).findSome? fun (n : Nat) =>
      onGrid? rank (decade (magnitude rank) - (n + 1)) with
  | none => exact exactDecimal_toBinary64 rank
  | some d =>
    obtain ⟨n, -, found⟩ := List.exists_of_findSome?_eq_some found
    exact onGrid?_toBinary64 found

end Binary64

/-! ## Numerals -/

namespace Decimal

theorem filter_isDigit {ds : List Char} (digits : ∀ c ∈ ds, c.isDigit = true) :
    ds.filter Char.isDigit = ds :=
  List.filter_eq_self.mpr digits

theorem isMantissa_of_isDigit {c : Char} (digit : c.isDigit = true) : isMantissa c = true := by
  rw [isMantissa, digit, Bool.true_or]

theorem ne_point_of_isDigit {c : Char} (digit : c.isDigit = true) : (c != '.') = true := by
  refine bne_iff_ne.mpr ?_
  rintro rfl
  contradiction

/-- A numeral without a point. -/
theorem ofNumeral_whole {whole tail : List Char} (digits : ∀ c ∈ whole, c.isDigit = true)
    (ends : ∀ c ∈ tail.head?, isMantissa c = false) :
    ofNumeral (whole ++ tail) = ⟨wholeOfDigits 10 whole, exponentValue (tail.drop 1)⟩ := by
  have mantissa (c : Char) (mem : c ∈ whole) := isMantissa_of_isDigit (digits c mem)
  have point : (whole ++ []).dropWhile (· != '.') = [] :=
    dropWhile_split (fun c mem => ne_point_of_isDigit (digits c mem)) (by simp)
  rw [List.append_nil] at point
  rw [ofNumeral, takeWhile_split mantissa ends, dropWhile_split mantissa ends]
  simp [point, filter_isDigit digits]

/-- A numeral with a point. -/
theorem ofNumeral_point {whole fraction tail : List Char}
    (digits : ∀ c ∈ whole, c.isDigit = true) (digits' : ∀ c ∈ fraction, c.isDigit = true)
    (ends : ∀ c ∈ tail.head?, isMantissa c = false) :
    ofNumeral (whole ++ '.' :: fraction ++ tail) =
      ⟨wholeOfDigits 10 (whole ++ fraction), exponentValue (tail.drop 1) - fraction.length⟩ := by
  have mantissa : ∀ c ∈ whole ++ '.' :: fraction, isMantissa c = true := by
    intro c mem
    rcases List.mem_append.mp mem with mem | mem
    · exact isMantissa_of_isDigit (digits c mem)
    rcases List.mem_cons.mp mem with rfl | mem
    · rfl
    · exact isMantissa_of_isDigit (digits' c mem)
  have point : (whole ++ '.' :: fraction).dropWhile (· != '.') = '.' :: fraction :=
    dropWhile_split (fun c mem => ne_point_of_isDigit (digits c mem)) (by simp)
  have kept : (whole ++ '.' :: fraction).filter Char.isDigit = whole ++ fraction := by
    rw [List.filter_append, List.filter_cons_of_neg (by decide), filter_isDigit digits,
      filter_isDigit digits']
  rw [ofNumeral, takeWhile_split mantissa ends, dropWhile_split mantissa ends]
  simp [point, kept]

/-- A numeral with a point and nothing behind the mantissa. -/
theorem ofNumeral_plain {whole fraction : List Char} (digits : ∀ c ∈ whole, c.isDigit = true)
    (digits' : ∀ c ∈ fraction, c.isDigit = true) :
    ofNumeral (whole ++ '.' :: fraction) =
      ⟨wholeOfDigits 10 (whole ++ fraction), -(fraction.length : Int)⟩ := by
  have nothing : ∀ c ∈ ([] : List Char).head?, isMantissa c = false := nofun
  have read := ofNumeral_point digits digits' nothing
  rw [List.append_nil] at read
  exact read.trans (congrArg _ (Int.zero_sub _))

theorem isDigit_zeros (k : Nat) : ∀ c ∈ List.replicate k '0', c.isDigit = true := by
  intro c mem
  rw [(List.mem_replicate.mp mem).2]
  rfl

/-- Digits with a point behind the first, if there are more. -/
def pointed : List Char → List Char
  | [] => []
  | [c] => [c]
  | c :: ds => c :: '.' :: ds

/-- A numeral with an exponent. -/
theorem ofNumeral_scientific {ds rest : List Char} (digits : ∀ c ∈ ds, c.isDigit = true)
    (nonempty : ds ≠ []) :
    ofNumeral (pointed ds ++ 'e' :: rest) =
      ⟨wholeOfDigits 10 ds, exponentValue rest - ((ds.length : Int) - 1)⟩ := by
  have ends : ∀ c ∈ ('e' :: rest).head?, isMantissa c = false := by
    intro c mem
    cases mem
    rfl
  match ds with
  | [] => exact absurd rfl nonempty
  | [c] =>
    refine (ofNumeral_whole digits ends).trans ?_
    rw [List.length_singleton, Int.natCast_one, Int.sub_self, Int.sub_zero]
    rfl
  | c :: d :: ds =>
    obtain ⟨first, others⟩ := List.forall_mem_cons.mp digits
    refine (ofNumeral_point (List.forall_mem_singleton.mpr first) others ends).trans ?_
    rw [List.singleton_append, List.length_cons (a := c), Int.natCast_add, Int.natCast_one,
      Int.add_sub_cancel]
    rfl

/-- Zeros behind the digits, and one behind the point. -/
theorem ofNumeral_zeros {ds : List Char} (digits : ∀ c ∈ ds, c.isDigit = true) (n : Nat) :
    ofNumeral (ds ++ List.replicate n '0' ++ ['.', '0']) =
      ⟨wholeOfDigits 10 ds * 10 ^ (n + 1), -1⟩ := by
  have all := List.forall_mem_append.mpr ⟨digits, isDigit_zeros n⟩
  refine (ofNumeral_plain all (isDigit_zeros 1)).trans ?_
  rw [List.append_assoc, List.replicate_append_replicate, wholeOfDigits_append,
    wholeOfDigits_zeros, List.length_replicate]
  rfl

/-- A point among the digits. -/
theorem ofNumeral_inside {ds : List Char} (digits : ∀ c ∈ ds, c.isDigit = true) (w : Nat) :
    ofNumeral (ds.take w ++ '.' :: ds.drop w) =
      ⟨wholeOfDigits 10 ds, -((ds.length - w : Nat) : Int)⟩ := by
  rw [ofNumeral_plain (fun c mem => digits c (List.mem_of_mem_take mem))
    (fun c mem => digits c (List.mem_of_mem_drop mem)), List.take_append_drop, List.length_drop]

/-- Zeros between the point and the digits. -/
theorem ofNumeral_below {ds : List Char} (digits : ∀ c ∈ ds, c.isDigit = true) (k : Nat) :
    ofNumeral ('0' :: '.' :: (List.replicate k '0' ++ ds)) =
      ⟨wholeOfDigits 10 ds, -((k + ds.length : Nat) : Int)⟩ := by
  have all := List.forall_mem_append.mpr ⟨isDigit_zeros k, digits⟩
  refine (ofNumeral_plain (isDigit_zeros 1) all).trans ?_
  rw [wholeOfDigits_zeros_append, wholeOfDigits_zeros_append, List.length_append,
    List.length_replicate]

end Decimal

namespace NumberLayout

/-- A text of letters. -/
structure IsName (text : List Char) : Prop where
  head : ∃ c rest, text = c :: rest ∧ isIdentStart c = true
  letters : ∀ c ∈ text, isIdentStart c = true

/-- Whole numbers end in a zero after the point, exponents have the usual mark, and what is no
finite number is shown by its name. -/
structure Regular (layout : NumberLayout) : Prop where
  wholeTail : layout.wholeTail = ".0"
  exponentMark : layout.exponentMark = "e"
  infinity : IsName layout.infinity.toList
  notANumber : IsName layout.notANumber.toList
  apart : layout.infinity ≠ layout.notANumber

theorem isDigit_toDigits (n : Nat) : ∀ c ∈ Nat.toDigits 10 n, c.isDigit = true :=
  fun _ mem => Nat.isDigit_of_mem_toDigits (by decide) (by decide) mem

/-- What besides digits stands in the text of a decimal. -/
def isNumeralMark (c : Char) : Bool := c == '.' || c == 'e' || c == '+' || c == '-'

/-- An exponent is read as it was written. -/
theorem Regular.exponentValue_writeExponent {layout : NumberLayout} (regular : layout.Regular)
    (e : Int) : ∃ rest, (layout.writeExponent e).toList = 'e' :: rest ∧
      Decimal.exponentValue rest = e ∧ ∀ c ∈ rest, c.isDigit = true ∨ isNumeralMark c = true := by
  have value (k : Nat) := wholeOfDigits_padded (show 1 < 10 by decide) (by decide) k e.natAbs
  have digits (k : Nat) := List.forall_mem_append.mpr
    ⟨Decimal.isDigit_zeros k, isDigit_toDigits e.natAbs⟩
  rw [writeExponent, regular.exponentMark]
  simp only [String.toList_append, Nat.repr_eq_ofList_toDigits, String.toList_ofList]
  by_cases negative : e < 0
  · rw [if_pos negative]
    refine ⟨_, rfl, ?_, List.forall_mem_cons.mpr ⟨Or.inr rfl, fun c mem => Or.inl (digits _ c mem)⟩⟩
    refine (congrArg (fun n : Nat => -(n : Int)) (value _)).trans ?_
    omega
  · rw [if_neg negative]
    refine ⟨_, rfl, ?_, List.forall_mem_cons.mpr ⟨Or.inr rfl, fun c mem => Or.inl (digits _ c mem)⟩⟩
    refine (congrArg (fun n : Nat => (n : Int)) (value _)).trans ?_
    omega

/-- A text says what decimal it was made from. -/
theorem Regular.ofNumeral_writeDecimal {layout : NumberLayout} (regular : layout.Regular)
    (negative : Bool) (d : Decimal) :
    (Decimal.ofNumeral (layout.writeDecimal d).toList).toBinary64 negative =
      d.toBinary64 negative := by
  have value := wholeOfDigits_toDigits (show 1 < 10 by decide) (by decide) d.digits
  have digits := isDigit_toDigits d.digits
  unfold writeDecimal
  rw [regular.wholeTail]
  split
  · next zero =>
    show (Decimal.mk 0 (-1)).toBinary64 negative = _
    rw [Decimal.toBinary64, Decimal.toBinary64, if_pos rfl, if_pos zero]
  next nonzero =>
  dsimp only
  split
  · next plain =>
    split
    · next whole =>
      have shift := Decimal.toBinary64_shift negative d (d.exponent.toNat + 1)
      have exponent : d.exponent - (d.exponent.toNat + 1 : Nat) = -1 := by omega
      rw [exponent] at shift
      rw [String.toList_append, String.toList_ofList]
      refine (congrArg _ (Decimal.ofNumeral_zeros digits _)).trans ?_
      rw [value, shift]
    split
    · next fraction large =>
      rw [String.toList_ofList, Decimal.ofNumeral_inside digits, value]
      congr 2
      omega
    · next fraction small =>
      rw [String.toList_ofList, List.cons_append, List.cons_append, Decimal.ofNumeral_below digits,
        value]
      congr 2
      omega
  · next scientific =>
    obtain ⟨rest, written, exponent, -⟩ :=
      regular.exponentValue_writeExponent (d.exponent + (Nat.toDigits 10 d.digits).length - 1)
    rw [String.toList_append, written, String.toList_ofList]
    refine (congrArg _ (Decimal.ofNumeral_scientific digits Nat.toDigits_ne_nil)).trans ?_
    rw [value, exponent]
    congr 2
    omega

/-! ## Different numbers -/

/-- The text of a decimal: a digit, then digits and marks, with a point or an exponent mark. -/
structure IsNumeral (text : List Char) : Prop where
  head : ∃ c rest, text = c :: rest ∧ c.isDigit = true
  chars : ∀ c ∈ text, c.isDigit = true ∨ isNumeralMark c = true
  marked : '.' ∈ text ∨ 'e' ∈ text

theorem isNumeral_point {whole fraction : List Char} (some : whole ≠ [])
    (digits : ∀ c ∈ whole, c.isDigit = true) (digits' : ∀ c ∈ fraction, c.isDigit = true) :
    IsNumeral (whole ++ '.' :: fraction) where
  head := by
    obtain ⟨c, whole, rfl⟩ := List.exists_cons_of_ne_nil some
    exact ⟨c, _, rfl, digits c List.mem_cons_self⟩
  chars := by
    intro c mem
    rcases List.mem_append.mp mem with mem | mem
    · exact Or.inl (digits c mem)
    rcases List.mem_cons.mp mem with rfl | mem
    · exact Or.inr rfl
    · exact Or.inl (digits' c mem)
  marked := Or.inl (List.mem_append_right _ List.mem_cons_self)

theorem isNumeral_exponent {c : Char} {mantissa rest : List Char} (digit : c.isDigit = true)
    (chars : ∀ c ∈ mantissa, c.isDigit = true ∨ isNumeralMark c = true)
    (chars' : ∀ c ∈ rest, c.isDigit = true ∨ isNumeralMark c = true) :
    IsNumeral (c :: mantissa ++ 'e' :: rest) where
  head := ⟨c, _, rfl, digit⟩
  chars := List.forall_mem_append.mpr
    ⟨List.forall_mem_cons.mpr ⟨Or.inl digit, chars⟩, List.forall_mem_cons.mpr ⟨Or.inr rfl, chars'⟩⟩
  marked := Or.inr (List.mem_append_right _ List.mem_cons_self)

theorem isNumeral_scientific {ds rest : List Char} (digits : ∀ c ∈ ds, c.isDigit = true)
    (nonempty : ds ≠ []) (chars : ∀ c ∈ rest, c.isDigit = true ∨ isNumeralMark c = true) :
    IsNumeral (Decimal.pointed ds ++ 'e' :: rest) := by
  match ds with
  | [] => exact absurd rfl nonempty
  | [c] =>
    exact isNumeral_exponent (digits c List.mem_cons_self)
      (fun _ mem => absurd mem List.not_mem_nil) chars
  | c :: d :: ds =>
    obtain ⟨first, others⟩ := List.forall_mem_cons.mp digits
    exact isNumeral_exponent first
      (List.forall_mem_cons.mpr ⟨Or.inr rfl, fun e mem => Or.inl (others e mem)⟩) chars

theorem Regular.isNumeral_writeDecimal {layout : NumberLayout} (regular : layout.Regular)
    (d : Decimal) : IsNumeral (layout.writeDecimal d).toList := by
  have digits := isDigit_toDigits d.digits
  have nonempty : Nat.toDigits 10 d.digits ≠ [] := Nat.toDigits_ne_nil
  have zero := Decimal.isDigit_zeros
  unfold writeDecimal
  rw [regular.wholeTail]
  split
  · exact isNumeral_point (List.cons_ne_nil _ _) (zero 1) (zero 1)
  dsimp only
  split
  · split
    · rw [String.toList_append, String.toList_ofList]
      exact isNumeral_point (List.append_ne_nil_of_left_ne_nil nonempty _)
        (List.forall_mem_append.mpr ⟨digits, zero _⟩) (zero 1)
    split
    · rw [String.toList_ofList]
      refine isNumeral_point ?_ (fun c mem => digits c (List.mem_of_mem_take mem))
        fun c mem => digits c (List.mem_of_mem_drop mem)
      simp
    · rw [String.toList_ofList]
      exact isNumeral_point (List.cons_ne_nil _ _) (zero 1)
        (List.forall_mem_append.mpr ⟨zero _, digits⟩)
  · obtain ⟨rest, written, -, chars⟩ :=
      regular.exponentValue_writeExponent (d.exponent + (Nat.toDigits 10 d.digits).length - 1)
    rw [String.toList_append, written, String.toList_ofList]
    exact isNumeral_scientific digits nonempty chars

theorem write_of_finite (layout : NumberLayout) {rank : Fin (Binary64.infinityRank + 1)}
    (finite : rank.val < Binary64.infinityRank) :
    layout.write (.signed false rank) = layout.writeDecimal (Binary64.shortest rank) := by
  rw [write, if_pos finite]
  exact String.empty_append

theorem write_of_infinite (layout : NumberLayout) {rank : Fin (Binary64.infinityRank + 1)}
    (infinite : ¬rank.val < Binary64.infinityRank) :
    layout.write (.signed false rank) = layout.infinity := by
  rw [write, if_neg infinite]
  exact String.empty_append

theorem write_negative (layout : NumberLayout) (rank : Fin (Binary64.infinityRank + 1)) :
    (layout.write (.signed true rank)).toList =
      '-' :: (layout.write (.signed false rank)).toList := by
  simp [write]

section

variable {layout : NumberLayout} (regular : layout.Regular)

include regular

/-- A finite magnitude begins with a digit, and infinity with a letter. -/
theorem Regular.head_write (rank : Fin (Binary64.infinityRank + 1)) :
    ∃ c rest, (layout.write (.signed false rank)).toList = c :: rest ∧
      if rank.val < Binary64.infinityRank then c.isDigit = true else isIdentStart c = true := by
  split
  · next finite =>
    rw [write_of_finite layout finite]
    exact (regular.isNumeral_writeDecimal _).head
  · next infinite =>
    rw [write_of_infinite layout infinite]
    exact regular.infinity.head

theorem Regular.write_ne_minus (rank : Fin (Binary64.infinityRank + 1)) (rest : List Char) :
    (layout.write (.signed false rank)).toList ≠ '-' :: rest := by
  obtain ⟨c, rest', text, head⟩ := regular.head_write rank
  rw [text]
  rintro ⟨⟩
  split at head <;> contradiction

/-- Different magnitudes are written differently. -/
theorem Regular.write_inj_rank {x y : Fin (Binary64.infinityRank + 1)}
    (same : layout.write (.signed false x) = layout.write (.signed false y)) : x = y := by
  obtain ⟨c, _, text, head⟩ := regular.head_write x
  obtain ⟨c', _, text', head'⟩ := regular.head_write y
  obtain rfl : c = c' := by
    rw [same, text'] at text
    exact (List.cons.inj text).1.symm
  by_cases finite : x.val < Binary64.infinityRank
  · by_cases finite' : y.val < Binary64.infinityRank
    · rw [write_of_finite layout finite, write_of_finite layout finite'] at same
      have read := regular.ofNumeral_writeDecimal false (Binary64.shortest x)
      rw [same, regular.ofNumeral_writeDecimal, Binary64.shortest_toBinary64,
        Binary64.shortest_toBinary64] at read
      simp only [Binary64.ofRank, Binary64.signed.injEq, Fin.mk.injEq, true_and,
        Nat.min_eq_left (Nat.le_of_lt finite), Nat.min_eq_left (Nat.le_of_lt finite')] at read
      exact Fin.ext read.symm
    · rw [if_pos finite] at head
      rw [if_neg finite'] at head'
      rw [not_isDigit_of_isIdentStart head'] at head
      contradiction
  · by_cases finite' : y.val < Binary64.infinityRank
    · rw [if_neg finite] at head
      rw [if_pos finite'] at head'
      rw [not_isDigit_of_isIdentStart head] at head'
      contradiction
    · have := x.isLt
      have := y.isLt
      omega

/-- What can stand in the text of a number: digits, marks and letters. -/
theorem Regular.write_chars (x : Binary64) : ∀ c ∈ (layout.write x).toList,
    c.isDigit = true ∨ isNumeralMark c = true ∨ isIdentStart c = true := by
  have magnitude (rank : Fin (Binary64.infinityRank + 1)) :
      ∀ c ∈ (layout.write (.signed false rank)).toList,
        c.isDigit = true ∨ isNumeralMark c = true ∨ isIdentStart c = true := by
    intro c mem
    by_cases finite : rank.val < Binary64.infinityRank
    · rw [write_of_finite layout finite] at mem
      exact ((regular.isNumeral_writeDecimal _).chars c mem).imp_right Or.inl
    · rw [write_of_infinite layout finite] at mem
      exact Or.inr (Or.inr (regular.infinity.letters c mem))
  match x with
  | .nan => exact fun c mem => Or.inr (Or.inr (regular.notANumber.letters c mem))
  | .signed false rank => exact magnitude rank
  | .signed true rank =>
    rw [write_negative]
    exact List.forall_mem_cons.mpr ⟨Or.inr (Or.inl rfl), magnitude rank⟩

theorem Regular.write_negative_ne (x y : Fin (Binary64.infinityRank + 1)) :
    layout.write (.signed true x) ≠ layout.write (.signed false y) := by
  intro same
  have minus := write_negative layout x
  rw [same] at minus
  exact regular.write_ne_minus y _ minus

theorem Regular.write_ne_notANumber (negative : Bool) (rank : Fin (Binary64.infinityRank + 1)) :
    layout.write (.signed negative rank) ≠ layout.notANumber := by
  intro same
  obtain ⟨c, rest, name, letter⟩ := regular.notANumber.head
  rw [← same] at name
  cases negative with
  | true =>
    rw [write_negative] at name
    obtain ⟨rfl, -⟩ := List.cons.inj name
    contradiction
  | false =>
    obtain ⟨c', rest', text, head⟩ := regular.head_write rank
    obtain ⟨rfl, -⟩ := List.cons.inj (name.symm.trans text)
    by_cases finite : rank.val < Binary64.infinityRank
    · rw [if_pos finite, not_isDigit_of_isIdentStart letter] at head
      contradiction
    · rw [write_of_infinite layout finite] at same
      exact regular.apart same

/-- Different numbers are written differently. -/
theorem Regular.write_inj {x y : Binary64} (same : layout.write x = layout.write y) : x = y := by
  cases x with
  | nan =>
    cases y with
    | nan => rfl
    | signed negative y => exact absurd same.symm (regular.write_ne_notANumber negative y)
  | signed negative x =>
    cases y with
    | nan => exact absurd same (regular.write_ne_notANumber negative x)
    | signed negative' y =>
      match negative, negative' with
      | false, false => rw [regular.write_inj_rank same]
      | false, true => exact absurd same.symm (regular.write_negative_ne y x)
      | true, false => exact absurd same (regular.write_negative_ne x y)
      | true, true =>
        have minus := write_negative layout x
        rw [same, write_negative] at minus
        rw [regular.write_inj_rank (String.toList_inj.mp (List.cons.inj minus).2.symm)]

end

/-! ## The two formats -/

theorem regular_standard : standard.Regular where
  wholeTail := rfl
  exponentMark := rfl
  infinity := ⟨⟨_, _, rfl, by decide⟩, List.all_eq_true.mp (by decide)⟩
  notANumber := ⟨⟨_, _, rfl, by decide⟩, List.all_eq_true.mp (by decide)⟩
  apart := by decide

end NumberLayout

end ScriptLexer
