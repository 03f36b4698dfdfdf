import ScriptLexer.Scan.Run
import ScriptLexer.Number.Decimal

/-
  Numbers. A decimal moves through its parts (`DecimalPart.next?`); a number in another base keeps
  the digits of the base. Both take a whole run and mark what does not belong. The old notations
  with a leading zero are read and then reported.
-/

namespace ScriptLexer

/-! ## Decimals -/

/-- The part of a decimal that the characters read so far have reached. -/
inductive DecimalPart
  | whole | fraction | exponentMark | exponent
deriving DecidableEq, Repr

def isExponentMark (c : Char) : Bool := c == 'e' || c == 'E'

def isSign (c : Char) : Bool := c == '+' || c == '-'

namespace DecimalPart

/-- The part after a character that belongs to the decimal; a sign belongs only right after the
exponent mark. -/
def next? (part : DecimalPart) (c : Char) : Option DecimalPart :=
  if c.isDigit then
    some (match part with
      | exponentMark => exponent
      | other => other)
  else match part with
    | whole =>
      if c = '.' then some fraction else if isExponentMark c then some exponentMark else none
    | fraction => if isExponentMark c then some exponentMark else none
    | exponentMark => if isSign c then some exponent else none
    | exponent => none

/-- The part after a stray; the place for a sign has passed. -/
def afterStray : DecimalPart → DecimalPart
  | exponentMark => exponent
  | other => other

end DecimalPart

/-- The marks of the rest of a decimal. Besides the strays, a last character is at fault if it
leaves the decimal without its last digit. -/
def decimalMarks : DecimalPart → List Char → List Mark
  | _, [] => []
  | part, c :: rest =>
    match part.next? c with
    | some next =>
      let fault := if rest.isEmpty && !c.isDigit then some .invalidOrUnexpectedToken else none
      ⟨c, true, fault⟩ :: decimalMarks next rest
    | none => .stray .invalidOrUnexpectedToken c :: decimalMarks part.afterStray rest

/-- What makes a decimal go on past its first character. -/
def continuesDecimal (c : Char) : Bool := c.isDigit || c == '.' || isExponentMark c

/-- The marks of a decimal that begins with `head`, a digit or a point with a digit after it. -/
def decimalRun (head : Char) (rest : List Char) : List Mark :=
  if rest.head?.any continuesDecimal then
    .keep head :: decimalMarks (if head = '.' then .fraction else .whole) (run rest)
  else [.keep head]

/-- The value of a decimal by the text that is kept. -/
def decimalValue (text : List Char) : Binary64 := (Decimal.ofNumeral text).toBinary64 false

/-- A decimal that begins with `head`. -/
def readDecimal (head : Char) (rest : List Char) : Construct :=
  let marks := decimalRun head rest
  { kind := .number
    value := .number (decimalValue (Mark.text marks))
    size := Mark.extent marks
    taken := marks.length
    faults := Mark.faults 0 marks
    size_pos := by
      simp only [marks, decimalRun]
      split <;> exact Mark.extent_pos rfl _
    size_le_taken := Mark.extent_le_length _ }

/-- A decimal with a zero in front of the digit `head`, reported as a notation of old. -/
def readLegacyDecimal (head : Char) (rest : List Char) : Construct :=
  let marks := decimalRun head rest
  let size := 1 + Mark.extent marks
  { kind := .number
    value := .number (decimalValue (Mark.text marks))
    size := size
    taken := 1 + marks.length
    faults := Mark.faults 1 marks ++ [⟨.legacyDecimalEscape, '0', 0, size⟩]
    size_pos := Nat.lt_of_lt_of_le Nat.zero_lt_one (Nat.le_add_right _ _)
    size_le_taken := Nat.add_le_add_left (Mark.extent_le_length _) _ }

/-! ## Other bases -/

/-- The bases that a number can name after its zero. -/
inductive Radix
  | binary | octal | hexadecimal
deriving DecidableEq, Repr

namespace Radix

def base : Radix → Nat
  | binary => 2
  | octal => 8
  | hexadecimal => 16

def isDigit : Radix → Char → Bool
  | binary, c => c == '0' || c == '1'
  | octal, c => isOctalDigit c
  | hexadecimal, c => isHexDigit c

/-- The base that a letter names, in either case. -/
def ofLetter? (c : Char) : Option Radix :=
  if c = 'b' ∨ c = 'B' then some binary
  else if c = 'o' ∨ c = 'O' then some octal
  else if c = 'x' ∨ c = 'X' then some hexadecimal
  else none

def mark (radix : Radix) (c : Char) : Mark :=
  if radix.isDigit c then .keep c
  else if c = '.' then .stray .unexpectedNumber c
  else .stray .invalidOrUnexpectedToken c

/-- The value of a row of digits; too large a number is infinite. -/
def value (radix : Radix) (digits : List Char) : Binary64 :=
  .ofRatio false (wholeOfDigits radix.base digits) 1

end Radix

/-- A number whose base has been named; `rest` comes after the letter. -/
def readRadix (radix : Radix) (rest : List Char) : Construct :=
  let marks := (run rest).map radix.mark
  let size := 2 + Mark.extent marks
  let digits := Mark.text marks
  { kind := .number
    value := .number (radix.value digits)
    size := size
    taken := 2 + marks.length
    faults := Mark.faults 2 marks ++
      (if digits.isEmpty then [⟨.invalidNumericLiteral, '0', 0, size⟩] else [])
    size_pos := Nat.lt_of_lt_of_le Nat.two_pos (Nat.le_add_right _ _)
    size_le_taken := Nat.add_le_add_left (Mark.extent_le_length _) _ }

/-- An octal number without a letter; `rest` comes after the zero. -/
def readLegacyOctal (rest : List Char) : Construct :=
  let marks := (run rest).map Radix.octal.mark
  let size := 1 + Mark.extent marks
  { kind := .number
    value := .number (Radix.octal.value (Mark.text marks))
    size := size
    taken := 1 + marks.length
    faults := Mark.faults 1 marks ++ [⟨.legacyOctalLiteral, '0', 0, size⟩]
    size_pos := Nat.lt_of_lt_of_le Nat.zero_lt_one (Nat.le_add_right _ _)
    size_le_taken := Nat.add_le_add_left (Mark.extent_le_length _) _ }

/-! ## The leading digit -/

/-- A zero that stands alone, with the faults found after it. -/
def loneZero (faults : List Fault) : Construct :=
  { kind := .number, value := .number .zero, size := 1, taken := 1, faults := faults
    size_pos := Nat.one_pos, size_le_taken := Nat.le_refl 1 }

/-- A number that begins with zero. A character that cannot follow the zero is reported and left
for the next construct. -/
def readAfterZero : List Char → Construct
  | [] => loneZero []
  | c :: rest =>
    match Radix.ofLetter? c with
    | some radix => readRadix radix rest
    | none =>
      if c = '8' ∨ c = '9' then readLegacyDecimal c rest
      else if isOctalDigit c then readLegacyOctal (c :: rest)
      else if c = '.' ∧ rest.head?.any Char.isDigit then readDecimal '0' (c :: rest)
      else if isBlank c then loneZero []
      else loneZero [⟨.invalidOrUnexpectedToken, c, 1, 1⟩]

/-- The number that begins with the digit `head`. -/
def readNumber (head : Char) (rest : List Char) : Construct :=
  if head = '0' then readAfterZero rest else readDecimal head rest

end ScriptLexer
