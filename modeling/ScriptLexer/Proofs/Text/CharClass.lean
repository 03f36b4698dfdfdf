import ScriptLexer.Scan.Numeral

/-
  The character classes by code number, and which of them exclude each other. Every class that a
  construct can begin with excludes the blanks.
-/

namespace ScriptLexer

theorem isBlank_iff_toNat {c : Char} : isBlank c = true ↔
    (9 ≤ c.toNat ∧ c.toNat ≤ 13) ∨ c.toNat = 0x20 ∨ c.toNat = 0x85 ∨ c.toNat = 0xa0 ∨
      c.toNat = 0x1680 ∨ (0x2000 ≤ c.toNat ∧ c.toNat ≤ 0x200a) ∨ c.toNat = 0x2028 ∨
      c.toNat = 0x2029 ∨ c.toNat = 0x202f ∨ c.toNat = 0x205f ∨ c.toNat = 0x3000 ∨
      c.toNat = 0xfeff := by
  simp only [isBlank, Bool.or_eq_true, Bool.and_eq_true, decide_eq_true_eq, beq_iff_eq,
    Char.le_def, UInt32.le_iff_toNat_le, ← Char.toNat_inj, or_assoc]
  exact Iff.rfl

theorem isIdentStart_iff_toNat {c : Char} : isIdentStart c = true ↔
    (65 ≤ c.toNat ∧ c.toNat ≤ 90) ∨ (97 ≤ c.toNat ∧ c.toNat ≤ 122) ∨ c.toNat = 36 ∨
      c.toNat = 95 := by
  have upper : c.isUpper = decide (65 ≤ c.val ∧ c.val ≤ 90) := rfl
  have lower : c.isLower = (decide (97 ≤ c.val) && decide (c.val ≤ 122)) := rfl
  have alpha : c.isAlpha = (c.isUpper || c.isLower) := rfl
  simp only [isIdentStart, alpha, upper, lower, Bool.or_eq_true, Bool.and_eq_true,
    decide_eq_true_eq, beq_iff_eq, UInt32.le_iff_toNat_le, ← Char.toNat_inj, or_assoc]
  exact Iff.rfl

theorem isDigit_iff_toNat {c : Char} : c.isDigit = true ↔ 48 ≤ c.toNat ∧ c.toNat ≤ 57 :=
  Char.isDigit_iff_toNat

theorem isOctalDigit_iff_toNat {c : Char} :
    isOctalDigit c = true ↔ 48 ≤ c.toNat ∧ c.toNat ≤ 55 := by
  simp only [isOctalDigit, Bool.and_eq_true, decide_eq_true_eq, Char.le_def,
    UInt32.le_iff_toNat_le]
  exact Iff.rfl

theorem isHexDigit_iff_toNat {c : Char} : isHexDigit c = true ↔
    (48 ≤ c.toNat ∧ c.toNat ≤ 57) ∨ (97 ≤ c.toNat ∧ c.toNat ≤ 102) ∨
      (65 ≤ c.toNat ∧ c.toNat ≤ 70) := by
  simp only [isHexDigit, Bool.or_eq_true, Bool.and_eq_true, decide_eq_true_eq, Char.le_def,
    UInt32.le_iff_toNat_le, isDigit_iff_toNat, or_assoc]
  exact Iff.rfl

/-! ## Blanks belong to no other class -/

theorem not_isBlank_of_isDigit {c : Char} (h : c.isDigit = true) : isBlank c = false := by
  rw [← Bool.not_eq_true, isBlank_iff_toNat]
  rw [isDigit_iff_toNat] at h
  omega

theorem not_isDigit_of_isBlank {c : Char} (h : isBlank c = true) : c.isDigit = false := by
  rw [← Bool.not_eq_true]
  intro digit
  rw [not_isBlank_of_isDigit digit] at h
  contradiction

theorem not_isBlank_of_isIdentStart {c : Char} (h : isIdentStart c = true) :
    isBlank c = false := by
  rw [← Bool.not_eq_true, isBlank_iff_toNat]
  rw [isIdentStart_iff_toNat] at h
  omega

theorem not_isBlank_of_isIdentPart {c : Char} (h : isIdentPart c = true) :
    isBlank c = false := by
  simp only [isIdentPart, Bool.or_eq_true, beq_iff_eq] at h
  rcases h with (h | h) | rfl
  · exact not_isBlank_of_isIdentStart h
  · exact not_isBlank_of_isDigit h
  · decide

theorem isDigit_of_isOctalDigit {c : Char} (h : isOctalDigit c = true) : c.isDigit = true := by
  rw [isOctalDigit_iff_toNat] at h
  rw [isDigit_iff_toNat]
  omega

theorem isHexDigit_of_isDigit {c : Char} (h : c.isDigit = true) : isHexDigit c = true := by
  simp [isHexDigit, h]

theorem Radix.isHexDigit_of_isDigit {radix : Radix} {c : Char} (h : radix.isDigit c = true) :
    isHexDigit c = true := by
  cases radix with
  | binary =>
    simp only [Radix.isDigit, Bool.or_eq_true, beq_iff_eq] at h
    rcases h with rfl | rfl <;> decide
  | octal => exact ScriptLexer.isHexDigit_of_isDigit (isDigit_of_isOctalDigit h)
  | hexadecimal => exact h

theorem Radix.not_isBlank_of_isDigit {radix : Radix} {c : Char} (h : radix.isDigit c = true) :
    isBlank c = false := by
  have hex := Radix.isHexDigit_of_isDigit h
  rw [isHexDigit_iff_toNat] at hex
  rw [← Bool.not_eq_true, isBlank_iff_toNat]
  omega

/-! ## The classes that begin a construct -/

theorem not_isDigit_of_isIdentStart {c : Char} (h : isIdentStart c = true) :
    c.isDigit = false := by
  rw [← Bool.not_eq_true, isDigit_iff_toNat]
  rw [isIdentStart_iff_toNat] at h
  omega

theorem not_quote_of_isDigit {c : Char} (h : c.isDigit = true) : ¬(c = '"' ∨ c = '\'') := by
  rintro (rfl | rfl) <;> exact absurd h (by decide)

theorem not_quote_of_isIdentStart {c : Char} (h : isIdentStart c = true) :
    ¬(c = '"' ∨ c = '\'') := by
  rintro (rfl | rfl) <;> exact absurd h (by decide)

theorem not_isBlank_of_quote {c : Char} (h : c = '"' ∨ c = '\'') : isBlank c = false := by
  rcases h with rfl | rfl <;> decide

theorem not_backslash_of_quote {c : Char} (h : c = '"' ∨ c = '\'') : c ≠ '\\' := by
  rcases h with rfl | rfl <;> decide

/-- The digits are the octal digits, `8` and `9`. -/
theorem isDigit_iff_octal {c : Char} :
    c.isDigit = true ↔ isOctalDigit c = true ∨ c = '8' ∨ c = '9' := by
  rw [isDigit_iff_toNat, isOctalDigit_iff_toNat, ← Char.toNat_inj, ← Char.toNat_inj]
  show _ ↔ _ ∨ c.toNat = 56 ∨ c.toNat = 57
  omega

theorem not_isBlank_of_beyond_octal {c : Char} (h : c = '8' ∨ c = '9') : isBlank c = false :=
  not_isBlank_of_isDigit (isDigit_iff_octal.mpr (Or.inr h))

/-- A letter that names a base is neither a digit nor a point nor a blank. -/
theorem Radix.of_ofLetter? {c : Char} {radix : Radix} (h : Radix.ofLetter? c = some radix) :
    isIdentStart c = true := by
  unfold Radix.ofLetter? at h
  split at h
  · next letter => rcases letter with rfl | rfl <;> decide
  split at h
  · next letter => rcases letter with rfl | rfl <;> decide
  split at h
  · next letter => rcases letter with rfl | rfl <;> decide
  · contradiction

/-! ## What a decimal goes on with -/

theorem continuesDecimal_iff {c : Char} :
    continuesDecimal c = true ↔ c.isDigit = true ∨ c = '.' ∨ c = 'e' ∨ c = 'E' := by
  simp only [continuesDecimal, isExponentMark, Bool.or_eq_true, beq_iff_eq, or_assoc]

theorem not_isBlank_of_continues {c : Char} (goes : continuesDecimal c = true) :
    isBlank c = false := by
  rcases continuesDecimal_iff.mp goes with digit | rfl | rfl | rfl
  · exact not_isBlank_of_isDigit digit
  all_goals decide

end ScriptLexer
