import ScriptLexer.Proofs.Grammar.Decimal
import ScriptLexer.Proofs.Cursor.Readers

/-
  Conversions of the texts that readers keep. Whatever the strays, what is kept of a decimal is
  `D* [. D*] [(e|E) [+|-] D*]` with a digit in front of the exponent; without an exponent that has
  no digits it can be converted, and this does not change its value (`floatOf?_cutOff`). So only a
  number of another base without any digit is reported as no number (`Radix.floatOf?_eq`).
-/

namespace ScriptLexer

open DecimalPart

/-! ## What is kept of a decimal -/

theorem accepts_of_afterStray {part : DecimalPart} {text : List Char}
    (h : part.afterStray.Accepts text) : part.Accepts text := by
  cases part with
  | exponentMark =>
    exact accepts_exponentMark_iff.mpr ⟨[], text, rfl, .absent, accepts_exponent_iff.mp h⟩
  | whole => exact h
  | fraction => exact h
  | exponent => exact h

/-- The characters that a row of decimal marks keeps are accepted without the strays. -/
theorem accepts_text_decimalMarks (part : DecimalPart) (text : List Char) :
    part.Accepts (Mark.text (decimalMarks part text)) := by
  induction text generalizing part with
  | nil => trivial
  | cons c rest ih =>
    unfold decimalMarks
    split
    · next next step => exact ⟨next, step, ih next⟩
    · exact accepts_of_afterStray (ih _)

/-! ## Mantissas -/

/-- Digits with at most one point, at least one of them. -/
structure Mantissa (text : List Char) : Prop where
  all : ∀ c ∈ text, Decimal.isMantissa c = true
  digit : text.any Char.isDigit = true
  point : text.count '.' ≤ 1

theorem isMantissa_of_isDigit {c : Char} (digit : c.isDigit = true) :
    Decimal.isMantissa c = true := by
  rw [Decimal.isMantissa, digit, Bool.true_or]

theorem Digits.count_point {text : List Char} (h : Digits text) : text.count '.' = 0 :=
  List.count_eq_zero.mpr fun mem => isDigit_ne_point (h _ mem) rfl

theorem Digits.any {text : List Char} (h : Digits text) (some : text ≠ []) :
    text.any Char.isDigit = true := by
  obtain ⟨c, text, rfl⟩ := List.exists_cons_of_ne_nil some
  rw [List.any_cons, (digits_cons.mp h).1, Bool.true_or]

theorem mantissa_whole {whole point : List Char} (all : Digits whole) (some : whole ≠ [])
    (pointed : Fraction point) : Mantissa (whole ++ point) := by
  have front := all.any some
  cases pointed with
  | absent =>
    rw [List.append_nil]
    exact ⟨fun c mem => isMantissa_of_isDigit (all c mem), front,
      all.count_point ▸ Nat.zero_le 1⟩
  | @present digits fractional =>
    refine ⟨?_, by rw [List.any_append, front, Bool.true_or], ?_⟩
    · rw [List.forall_mem_append, List.forall_mem_cons]
      exact ⟨fun c mem => isMantissa_of_isDigit (all c mem), rfl,
        fun c mem => isMantissa_of_isDigit (fractional c mem)⟩
    · rw [List.count_append, List.count_cons_self, all.count_point, fractional.count_point]

theorem mantissa_point {digits : List Char} (all : Digits digits) (some : digits ≠ []) :
    Mantissa ('.' :: digits) where
  all := List.forall_mem_cons.mpr ⟨rfl, fun c mem => isMantissa_of_isDigit (all c mem)⟩
  digit := by rw [List.any_cons, all.any some, Bool.or_true]
  point := by rw [List.count_cons_self, all.count_point]

/-! ## A mantissa and an exponent -/

theorem not_isMantissa_of_exponentOrNone {tail : List Char} (h : ExponentOrNone tail) :
    ∀ c ∈ tail.head?, ¬Decimal.isMantissa c = true := by
  rcases h with rfl | ⟨digits, mark, sign, rfl, named, -⟩
  · exact nofun
  · intro c mem
    rw [List.head?_cons, Option.mem_some_iff] at mem
    rw [← mem]
    rcases named with rfl | rfl <;> decide

theorem takeWhile_mantissa {mantissa tail : List Char}
    (all : ∀ c ∈ mantissa, Decimal.isMantissa c = true) (behind : ExponentOrNone tail) :
    (mantissa ++ tail).takeWhile Decimal.isMantissa = mantissa := by
  rw [List.takeWhile_append_of_pos all]
  cases tail with
  | nil => simp
  | cons c tail => simp [not_isMantissa_of_exponentOrNone behind c rfl]

theorem dropWhile_mantissa {mantissa tail : List Char}
    (all : ∀ c ∈ mantissa, Decimal.isMantissa c = true) (behind : ExponentOrNone tail) :
    (mantissa ++ tail).dropWhile Decimal.isMantissa = tail := by
  rw [List.dropWhile_append_of_pos all]
  cases tail with
  | nil => rfl
  | cons c tail => simp [not_isMantissa_of_exponentOrNone behind c rfl]

/-- The value depends on the exponent only through what it comes to. -/
theorem decimalValue_congr {mantissa tail tail' : List Char}
    (all : ∀ c ∈ mantissa, Decimal.isMantissa c = true) (behind : ExponentOrNone tail)
    (behind' : ExponentOrNone tail')
    (same : Decimal.exponentValue (tail.drop 1) = Decimal.exponentValue (tail'.drop 1)) :
    decimalValue (mantissa ++ tail) = decimalValue (mantissa ++ tail') := by
  simp only [decimalValue, Decimal.ofNumeral, takeWhile_mantissa all behind,
    takeWhile_mantissa all behind', dropWhile_mantissa all behind,
    dropWhile_mantissa all behind', same]

theorem isExponentText_of {text : List Char} (h : Exponent text) :
    isExponentText text = true := by
  cases h with
  | absent => rfl
  | @present _ digits marked some =>
    obtain ⟨mark, sign, rfl, named, signed, all⟩ := marked
    have isMark : isExponentMark mark = true := by rcases named with rfl | rfl <;> rfl
    have rest : unsigned (sign ++ digits) = digits := by
      cases signed with
      | plus => rfl
      | minus => rfl
      | absent =>
        obtain ⟨c, digits, rfl⟩ := List.exists_cons_of_ne_nil some
        have digit := (digits_cons.mp all).1
        have unsigned : isSign c = false := by
          rw [← Bool.not_eq_true]
          intro sign
          simp only [isSign, Bool.or_eq_true, beq_iff_eq] at sign
          rcases sign with rfl | rfl <;> exact absurd digit (by decide)
        rw [List.nil_append, ScriptLexer.unsigned, unsigned]
        rfl
    rw [isExponentText, rest, isMark, List.all_eq_true.mpr all]
    cases digits with
    | nil => contradiction
    | cons c digits => rfl

theorem floatOf?_append {mantissa exponent : List Char} (front : Mantissa mantissa)
    (behind : Exponent exponent) :
    floatOf? (mantissa ++ exponent) = some (decimalValue (mantissa ++ exponent)) := by
  have float : isFloatText (mantissa ++ exponent) = true := by
    rw [isFloatText, takeWhile_mantissa front.all behind.orNone,
      dropWhile_mantissa front.all behind.orNone, front.digit, isExponentText_of behind,
      decide_eq_true front.point]
    rfl
  rw [floatOf?, if_pos float]

/-! ## Exponents without digits -/

theorem rdropWhile_append_of_pos {p : Char → Bool} {front tail : List Char}
    (h : ∀ c ∈ tail, p c = true) : (front ++ tail).rdropWhile p = front.rdropWhile p := by
  rw [List.rdropWhile, List.reverse_append, List.dropWhile_append_of_pos, List.rdropWhile]
  intro c mem
  exact h c (List.mem_reverse.mp mem)

theorem not_isCutOff_of_isMantissa {c : Char} (h : Decimal.isMantissa c = true) :
    isCutOff c = false := by
  rw [← Bool.not_eq_true]
  intro cut
  simp only [isCutOff, isExponentMark, isSign, Bool.or_eq_true, beq_iff_eq] at cut
  rcases cut with (rfl | rfl) | rfl | rfl <;> exact absurd h (by decide)

theorem rdropWhile_eq_self {text : List Char}
    (last : ∀ c ∈ text.getLast?, Decimal.isMantissa c = true) :
    text.rdropWhile isCutOff = text := by
  rw [List.rdropWhile_eq_self_iff]
  intro some
  rw [not_isCutOff_of_isMantissa (last _ (List.getLast?_eq_some_getLast some))]
  exact Bool.false_ne_true

/-- What is cut off is an exponent without digits, if there is one. -/
theorem rdropWhile_cutOff {mantissa tail : List Char} (front : Mantissa mantissa)
    (behind : ExponentOrNone tail) :
    Exponent tail ∧ (mantissa ++ tail).rdropWhile isCutOff = mantissa ++ tail ∨
      MarkedExponent tail [] ∧ (mantissa ++ tail).rdropWhile isCutOff = mantissa := by
  have self : mantissa.rdropWhile isCutOff = mantissa :=
    rdropWhile_eq_self fun c mem => front.all c (List.mem_of_getLast? mem)
  rcases behind with rfl | ⟨digits, marked⟩
  · exact Or.inl ⟨.absent, by rw [List.append_nil, self]⟩
  · by_cases none : digits = []
    · subst none
      refine Or.inr ⟨marked, ?_⟩
      obtain ⟨mark, sign, rfl, named, signed, -⟩ := marked
      have cut : ∀ c ∈ mark :: (sign ++ []), isCutOff c = true := by
        rw [List.append_nil, List.forall_mem_cons]
        constructor
        · rcases named with rfl | rfl <;> rfl
        · cases signed with
          | absent => exact nofun
          | plus => exact List.forall_mem_singleton.mpr rfl
          | minus => exact List.forall_mem_singleton.mpr rfl
      rw [rdropWhile_append_of_pos cut, self]
    · have exponent := Exponent.present marked none
      refine Or.inl ⟨exponent, rdropWhile_eq_self fun c mem => ?_⟩
      have last := exponent.last
      obtain ⟨mark, sign, rfl, -⟩ := marked
      rw [List.getLast?_append_of_ne_nil _ (List.cons_ne_nil _ _)] at mem
      exact isMantissa_of_isDigit (last c mem)

/-- An exponent without digits comes to nothing. -/
theorem exponentValue_of_markedExponent_nil {tail : List Char} (h : MarkedExponent tail []) :
    Decimal.exponentValue (tail.drop 1) = 0 := by
  obtain ⟨mark, sign, rfl, -, signed, -⟩ := h
  cases signed <;> rfl

/-- Without its digitless exponent a decimal can be converted, to the same value. -/
theorem floatOf?_cutOff {mantissa tail : List Char} (front : Mantissa mantissa)
    (behind : ExponentOrNone tail) :
    floatOf? ((mantissa ++ tail).rdropWhile isCutOff) =
      some (decimalValue (mantissa ++ tail)) := by
  rcases rdropWhile_cutOff front behind with ⟨exponent, whole⟩ | ⟨digitless, core⟩
  · rw [whole, floatOf?_append front exponent]
  · have alone := floatOf?_append front .absent
    have same := decimalValue_congr front.all behind (Or.inl rfl)
      (exponentValue_of_markedExponent_nil digitless)
    rw [List.append_nil] at alone same
    rw [core, alone, same]

/-! ## What readers convert -/

/-- Behind a first digit. -/
theorem floatOf?_whole {head : Char} {text : List Char} (digit : head.isDigit = true)
    (accepted : whole.Accepts text) :
    floatOf? ((head :: text).rdropWhile isCutOff) = some (decimalValue (head :: text)) := by
  obtain ⟨digits, point, tail, rfl, all, pointed, behind⟩ := accepts_whole_iff.mp accepted
  have front := mantissa_whole (digits_cons.mpr ⟨digit, all⟩) (List.cons_ne_nil _ _) pointed
  have cut := floatOf?_cutOff front behind
  rw [List.append_assoc] at cut
  exact cut

/-- Behind a point and a first digit. -/
theorem floatOf?_point {next : Char} {text : List Char} (digit : next.isDigit = true)
    (accepted : fraction.Accepts (next :: text)) :
    floatOf? (('.' :: next :: text).rdropWhile isCutOff) =
      some (decimalValue ('.' :: next :: text)) := by
  obtain ⟨digits, tail, e, all, behind⟩ := accepts_fraction_iff.mp accepted
  have some : digits ≠ [] := by
    rintro rfl
    have first : next ∈ tail.head? := by
      rw [← List.nil_append tail, ← e]
      rfl
    exact not_isMantissa_of_exponentOrNone behind next first (isMantissa_of_isDigit digit)
  rw [e]
  exact floatOf?_cutOff (mantissa_point all some) behind

theorem floatOf?_digit {head : Char} (digit : head.isDigit = true) :
    floatOf? [head] = some (decimalValue [head]) := by
  have all : Digits [head] := digits_cons.mpr ⟨digit, digits_nil⟩
  exact floatOf?_append (mantissa_whole all (List.cons_ne_nil _ _) .absent) .absent

theorem Binary64.ofRank_eq_infinity {negative : Bool} {rank : Nat}
    (h : ¬(ofRank negative rank).isFinite = true) :
    ofRank negative rank = infinity negative := by
  have large : infinityRank ≤ min rank infinityRank := by
    simpa [ofRank, isFinite] using h
  have large : infinityRank ≤ rank := large.trans (Nat.min_le_left _ _)
  unfold infinity ofRank
  congr 2
  rw [Nat.min_eq_right large, Nat.min_self]

/-- Digits of a base denote a number, unless there are none. -/
theorem Radix.floatOf?_eq {radix : Radix} {digits : List Char}
    (all : ∀ c ∈ digits, radix.isDigit c = true) :
    radix.floatOf? digits = if digits.isEmpty then none else some (radix.value digits) := by
  have inBase := List.all_eq_true.mpr all
  rw [floatOf?, inBase, Bool.not_true, Bool.or_false]
  refine if_congr Iff.rfl rfl ?_
  have value : radix.value digits = Binary64.ofRatio false (wholeOfDigits radix.base digits) 1 :=
    rfl
  rw [Binary64.ofInt?, value]
  simp only [Int.natAbs_natCast, Int.not_ofNat_neg, decide_false]
  split
  · rfl
  · next infinite => exact congrArg some (Binary64.ofRank_eq_infinity infinite).symm

end ScriptLexer
