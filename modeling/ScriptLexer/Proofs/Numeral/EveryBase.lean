import ScriptLexer.Proofs.Grammar.Acceptance
import ScriptLexer.Proofs.Number.Nearest
import ScriptLexer.Proofs.Number.ReadBack

/-
  One number in every base. The digits of a whole number make a decimal, and behind a zero and the
  letter of a base a number of that base; all of them are read as the double nearest to the whole
  number (`Scan.ofText_wholeNumeral`). The decimal is read as digits and a power of ten, which is a
  quotient by one when it is whole (`decimalValue_toDigits`).
-/

namespace ScriptLexer

open Binary64 (IsDoubleOf overflow)

/-! ## Digits of a base -/

namespace Radix

variable (radix : Radix)

theorem two_le_base : 1 < radix.base := by cases radix <;> decide

theorem base_le_sixteen : radix.base ≤ 16 := by cases radix <;> decide

theorem isDigit_digitChar : ∀ d < radix.base, radix.isDigit d.digitChar = true := by
  cases radix <;> decide

theorem isDigit_toLower (c : Char) : radix.isDigit c.toLower = radix.isDigit c := by
  apply apply_toLower
  cases radix <;> decide

theorem isDigit_zero : radix.isDigit '0' = true := by cases radix <;> rfl

end Radix

/-- Digits of the number `n` in a base, with zeros in front and in either letter case. -/
def Radix.Writes (radix : Radix) (n : Nat) (text : List Char) : Prop :=
  ∃ zeros digits, text = List.replicate zeros '0' ++ digits ∧
    digits.map Char.toLower = Nat.toDigits radix.base n

/-- Every number is written in each base. -/
theorem Radix.writes_toDigits (radix : Radix) (n zeros : Nat) :
    radix.Writes n (List.replicate zeros '0' ++ Nat.toDigits radix.base n) := by
  refine ⟨zeros, _, rfl, ?_⟩
  have lower : ∀ d < radix.base, (d.digitChar.toLower == d.digitChar) = true := by
    cases radix <;> decide
  have same : ∀ c ∈ Nat.toDigits radix.base n, c.toLower = id c := fun c mem =>
    eq_of_beq (forall_mem_toDigits (p := fun c => c.toLower == c) radix.two_le_base lower n c mem)
  rw [List.map_congr_left same, List.map_id]

section Writes

variable {radix : Radix} {n : Nat} {text : List Char}

theorem Radix.Writes.ne_nil (writes : radix.Writes n text) : text ≠ [] := by
  obtain ⟨zeros, digits, rfl, lower⟩ := writes
  apply List.append_ne_nil_of_right_ne_nil
  rintro rfl
  exact Nat.toDigits_ne_nil lower.symm

theorem Radix.Writes.isDigit (writes : radix.Writes n text) :
    ∀ c ∈ text, radix.isDigit c = true := by
  obtain ⟨zeros, digits, rfl, lower⟩ := writes
  rw [List.forall_mem_append]
  constructor
  · intro c mem
    rw [(List.mem_replicate.mp mem).2]
    exact radix.isDigit_zero
  · intro c mem
    have own := forall_mem_toDigits radix.two_le_base radix.isDigit_digitChar n
    rw [← lower, List.forall_mem_map] at own
    rw [← radix.isDigit_toLower]
    exact own c mem

theorem Radix.Writes.value (writes : radix.Writes n text) :
    radix.value text = .ofRatio false n 1 := by
  obtain ⟨zeros, digits, rfl, lower⟩ := writes
  rw [Radix.value, wholeOfDigits_zeros_append, ← wholeOfDigits_map_toLower, lower,
    wholeOfDigits_toDigits radix.two_le_base radix.base_le_sixteen]

end Writes

/-! ## Decimals -/

theorem decimalValue_toDigits (n : Nat) :
    decimalValue (Nat.toDigits 10 n) = .ofRatio false n 1 := by
  have read := @Decimal.ofNumeral_whole _ [] (NumberLayout.isDigit_toDigits n) (by simp)
  rw [List.append_nil, wholeOfDigits_toDigits (by decide) (by decide)] at read
  rw [decimalValue, read, Decimal.toBinary64_eq]
  show Binary64.ofRatio false (n * 10 ^ 0) (10 ^ 0) = _
  rw [Nat.pow_zero, Nat.mul_one]

theorem toDigits_isNumeral (n : Nat) : IsNumeral (Nat.toDigits 10 n) :=
  ⟨Nat.toDigits 10 n, [], [], (List.append_nil _).symm, Nat.toDigits_ne_nil,
    NumberLayout.isDigit_toDigits n, .absent, .absent⟩

/-- The digits of a number of two digits or more. -/
theorem toDigits_decimalLexeme {n : Nat} (great : 10 ≤ n) :
    DecimalLexeme (Nat.toDigits 10 n) := by
  have digits := NumberLayout.isDigit_toDigits n
  have long : 2 ≤ (Nat.toDigits 10 n).length := by
    rw [← Nat.not_lt, Nat.lt_succ_iff, Nat.length_toDigits_le_iff (by decide) Nat.one_pos]
    omega
  have last : (Nat.toDigits 10 n).getLast? ≠ some '.' := by
    intro point
    have digit := digits '.' (List.mem_of_getLast? point)
    contradiction
  obtain ⟨head, rest, e, nonzero⟩ := exists_toDigits (show 0 < n by omega)
  refine .whole (toDigits_isNumeral n) long last (Or.inl ⟨head, rest, e, ?_, nonzero⟩)
  exact digits head (e ▸ List.mem_cons_self)

/-- The digits of a number are a lexeme of it. -/
theorem toDigits_lexeme (n : Nat) :
    Lexeme (Nat.toDigits 10 n) [] .number (.number (.ofRatio false n 1)) none := by
  by_cases zero : n = 0
  · rw [zero, Binary64.ofRatio_zero]
    exact .zero atBoundary_nil
  rw [← decimalValue_toDigits]
  rcases Nat.lt_or_ge n 10 with small | great
  · have nonzero : ∀ d < 10, d ≠ 0 → d.digitChar.isDigit = true ∧ d.digitChar ≠ '0' := by decide
    obtain ⟨digit, other⟩ := nonzero n small zero
    rw [Nat.toDigits_of_lt_base small]
    exact .digit digit other (by simp)
  · exact .decimal (toDigits_decimalLexeme great) atBoundary_nil

/-! ## Numerals of a number -/

/-- The numerals of a whole number: the decimal without zeros in front, and for each other base
those that begin with a zero and the letter of the base. -/
inductive WholeNumeral (n : Nat) : List Char → Prop
  | decimal : WholeNumeral n (Nat.toDigits 10 n)
  | radix {letter : Char} {radix : Radix} {digits : List Char}
    (named : Radix.ofLetter? letter = some radix) (writes : radix.Writes n digits) :
    WholeNumeral n ('0' :: letter :: digits)

theorem WholeNumeral.lexeme {n : Nat} {text : List Char} (numeral : WholeNumeral n text) :
    Lexeme text [] .number (.number (.ofRatio false n 1)) none := by
  cases numeral with
  | decimal => exact toDigits_lexeme n
  | radix named writes =>
    rw [← writes.value]
    exact .radix named writes.ne_nil writes.isDigit atBoundary_nil

namespace Scan

/-- All numerals of a whole number are read as one number, the double nearest to it: the source is
a single token without a diagnostic, and the number is infinite for all of them or for none. -/
theorem ofText_wholeNumeral (n : Nat) : ∃ x, IsDoubleOf n x ∧
    (x = .infinity false ↔ overflow ≤ n) ∧
    ∀ text, WholeNumeral n text → ofText (String.ofList text) =
      ⟨[⟨.number, Span.cover 0 text.length, .number x, none⟩], [], none⟩ := by
  have double := Binary64.ofRatio_one_isDoubleOf n
  exact ⟨_, double, double.eq_infinity_iff, fun _ numeral => ofText_of_lexeme numeral.lexeme⟩

/-- The number before 2^54, which lies in the middle between two doubles. -/
theorem ofText_wholeNumeral_tie : ∃ x, ∀ source ∈ ["18014398509481983", "0X003FffffFFFFffFF",
      "0o777777777777777777", "0B0111111111111111111111111111111111111111111111111111111"],
    ofText source =
      ⟨[⟨.number, Span.cover 0 source.toList.length, .number x, none⟩], [], none⟩ := by
  obtain ⟨x, -, -, same⟩ := ofText_wholeNumeral 18014398509481983
  refine ⟨x, fun source mem => ?_⟩
  have numeral : WholeNumeral 18014398509481983 source.toList := by
    simp only [List.mem_cons, List.not_mem_nil, or_false] at mem
    rcases mem with rfl | rfl | rfl | rfl
    · have decimal : Nat.toDigits 10 18014398509481983 = "18014398509481983".toList := by
        decide +kernel
      rw [← decimal]
      exact .decimal
    · exact @WholeNumeral.radix _ _ .hexadecimal _ rfl
        ⟨2, "3FffffFFFFffFF".toList, rfl, by decide +kernel⟩
    · have octal : Nat.toDigits Radix.octal.base 18014398509481983 =
          "777777777777777777".toList := by decide +kernel
      have writes := Radix.octal.writes_toDigits 18014398509481983 0
      rw [octal] at writes
      exact .radix rfl writes
    · exact @WholeNumeral.radix _ _ .binary _ rfl ⟨1, List.replicate 54 '1', rfl, by decide +kernel⟩
  have read := same source.toList numeral
  rwa [String.ofList_toList] at read

end Scan

end ScriptLexer
