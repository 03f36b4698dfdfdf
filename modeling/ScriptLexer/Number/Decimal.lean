import ScriptLexer.Number.Binary64

/-
  Decimals: a whole number times a power of ten. `Decimal.ofNumeral` reads a decimal numeral,
  `Decimal.toBinary64` rounds it, and `Binary64.shortest` finds the decimal with the fewest
  digits that rounds back to a given number, of those the nearest.
-/

namespace ScriptLexer

/-- The number `digits * 10 ^ exponent`. -/
structure Decimal where
  digits : Nat
  exponent : Int
deriving DecidableEq, Repr

def isHexDigit (c : Char) : Bool :=
  c.isDigit || ('a' ≤ c && c ≤ 'f') || ('A' ≤ c && c ≤ 'F')

/-- The value of a digit character in any base up to sixteen. -/
def digitValue (c : Char) : Nat :=
  if '0' ≤ c ∧ c ≤ '9' then c.toNat - 48
  else if 'a' ≤ c ∧ c ≤ 'f' then c.toNat - 87
  else if 'A' ≤ c ∧ c ≤ 'F' then c.toNat - 55
  else 0

/-- The whole number that a row of digits denotes in a base. -/
def wholeOfDigits (base : Nat) (digits : List Char) : Nat :=
  digits.foldl (fun n c => n * base + digitValue c) 0

/-- The greatest number of decimal digits of a whole number that is read from a text. -/
def wholeDigitLimit : Nat := 4300

/-- The number of decimal digits of a positive number. -/
def decimalLength (n : Nat) : Nat := (Nat.toDigits 10 n).length

namespace Decimal

/-- The nearest binary64 number. Beyond 10^310 all is infinite and below 10^-330 all is zero, so
that no exponent, however large, has to be raised to. -/
def toBinary64 (negative : Bool) (d : Decimal) : Binary64 :=
  if d.digits = 0 then .ofRank negative 0
  else if 310 < d.exponent then .infinity negative
  else if (decimalLength d.digits : Int) + d.exponent < -330 then .ofRank negative 0
  else .ofRatio negative (d.digits * Nat.pow 10 d.exponent.toNat) (Nat.pow 10 (-d.exponent).toNat)

/-- Part of the mantissa of a numeral: a digit or the point. -/
def isMantissa (c : Char) : Bool := c.isDigit || c == '.'

/-- The exponent of a numeral as it stands after the mark, with an optional sign. -/
def exponentValue : List Char → Int
  | '-' :: digits => -(wholeOfDigits 10 digits : Int)
  | '+' :: digits => wholeOfDigits 10 digits
  | digits => wholeOfDigits 10 digits

/-- Reads `digits [. digits] [mark [sign] digits]`, either side of the point possibly empty. -/
def ofNumeral (numeral : List Char) : Decimal :=
  let mantissa := numeral.takeWhile isMantissa
  let fraction := (mantissa.dropWhile (· != '.')).drop 1
  let exponent := (numeral.dropWhile isMantissa).drop 1
  ⟨wholeOfDigits 10 (mantissa.filter Char.isDigit),
   exponentValue exponent - (fraction.length : Int)⟩

/-- The same number with the zeros at the end of its digits moved into the exponent. -/
def trim (d : Decimal) : Decimal :=
  go (decimalLength d.digits) d
where
  go : Nat → Decimal → Decimal
    | 0, d => d
    | fuel + 1, d =>
      if d.digits ≠ 0 ∧ d.digits % 10 = 0 then go fuel ⟨d.digits / 10, d.exponent + 1⟩ else d

end Decimal

namespace Binary64

/-- The decade of a positive magnitude `m`: the `k` with `10 ^ (k - 1) ≤ m / 2 ^ 1074 < 10 ^ k`. -/
def decade (m : Nat) : Int := (decimalLength (m * Nat.pow 10 400 / Nat.pow 2 1074) : Int) - 400

/-- The two decimals next to a magnitude on the grid of multiples of `10 ^ exponent`, the lower
one first, and whether the magnitude lies nearer to the upper one. -/
def neighbours (m : Nat) (exponent : Int) : Decimal × Decimal × Bool :=
  let num := m * Nat.pow 10 (-exponent).toNat
  let den := Nat.pow 2 1074 * Nat.pow 10 exponent.toNat
  let low := num / den
  (⟨low, exponent⟩, ⟨low + 1, exponent⟩,
    den < 2 * (num % den) || (2 * (num % den) == den && low % 2 == 1))

/-- The nearest decimal on a grid that rounds to the given rank, if any does. -/
def onGrid? (rank : Nat) (exponent : Int) : Option Decimal :=
  let reads (d : Decimal) : Bool := d.toBinary64 false == ofRank false rank
  let (low, high, upper) := neighbours (magnitude rank) exponent
  match reads low, reads high with
  | true, true => some (if upper then high else low)
  | true, false => some low
  | false, true => some high
  | false, false => none

/-- All digits of a magnitude. -/
def exactDecimal (m : Nat) : Decimal := ⟨m * Nat.pow 5 1074, -1074⟩

/-- The decimal with the fewest digits that rounds to the given finite rank, and of those the
nearest. Seventeen digits always are enough. -/
def shortest (rank : Nat) : Decimal :=
  let k := decade (magnitude rank)
  (((List.range 17).findSome? fun (n : Nat) => onGrid? rank (k - (n + 1))).getD
    (exactDecimal (magnitude rank))).trim

end Binary64

end ScriptLexer
