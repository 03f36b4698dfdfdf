import ScriptLexer.Number.Decimal

/-
  How numbers are written. A `NumberLayout` says which decimals stand without an exponent and how
  the others show theirs; `NumberLayout.write` writes the shortest decimal that reads back.
  `fixedPlaces` rounds to a fixed number of places instead.
-/

namespace ScriptLexer

/-- The decisions of a number format. -/
structure NumberLayout where
  /-- The least and greatest scientific exponents that are written without an exponent. -/
  leastPlain : Int
  greatestPlain : Int
  /-- What follows a whole number that is written without an exponent. -/
  wholeTail : String
  exponentMark : String
  /-- The least number of digits of an exponent. -/
  exponentWidth : Nat
  infinity : String
  notANumber : String

namespace NumberLayout

/-- An exponent with its sign, padded with zeros. -/
def writeExponent (layout : NumberLayout) (e : Int) : String :=
  let digits := Nat.repr e.natAbs
  let zeros := String.ofList (List.replicate (layout.exponentWidth - digits.length) '0')
  layout.exponentMark ++ (if e < 0 then "-" else "+") ++ zeros ++ digits

/-- A nonnegative decimal. -/
def writeDecimal (layout : NumberLayout) (d : Decimal) : String :=
  if d.digits = 0 then "0" ++ layout.wholeTail
  else
    let digits := Nat.toDigits 10 d.digits
    let e := d.exponent + digits.length - 1
    if layout.leastPlain ≤ e ∧ e ≤ layout.greatestPlain then
      if 0 ≤ d.exponent then
        String.ofList (digits ++ List.replicate d.exponent.toNat '0') ++ layout.wholeTail
      else if 0 ≤ e then
        let whole := e.toNat + 1
        String.ofList (digits.take whole ++ '.' :: digits.drop whole)
      else
        String.ofList ('0' :: '.' :: List.replicate (-e - 1).toNat '0' ++ digits)
    else
      let mantissa := match digits with
        | [] => []
        | [c] => [c]
        | c :: rest => c :: '.' :: rest
      String.ofList mantissa ++ layout.writeExponent e

/-- A number, by the fewest digits that read back. -/
def write (layout : NumberLayout) : Binary64 → String
  | .nan => layout.notANumber
  | .signed negative rank =>
    (if negative then "-" else "") ++
      if rank.val < Binary64.infinityRank then layout.writeDecimal (Binary64.shortest rank)
      else layout.infinity

/-- Plain from 10^-4 up to 10^16, whole numbers with a zero after the point, and exponents with a
sign and two digits. -/
def standard : NumberLayout :=
  { leastPlain := -4, greatestPlain := 15, wholeTail := ".0", exponentMark := "e"
    exponentWidth := 2, infinity := "inf", notANumber := "nan" }

end NumberLayout

/-- A number with a fixed number of places, the exact value rounded with a half to the even
neighbour. The sign is that of the number itself, also where nothing but zeros is left; a plus
is written on request. -/
def fixedPlaces (places : Nat) (plus : Bool) : Binary64 → String
  | .nan => (if plus then "+" else "") ++ "nan"
  | .signed negative rank =>
    (if negative then "-" else if plus then "+" else "") ++
      if rank.val < Binary64.infinityRank then
        let n := Binary64.roundHalfEven (Binary64.magnitude rank * Nat.pow 10 places) (Nat.pow 2 1074)
        let fraction := Nat.repr (n % Nat.pow 10 places)
        let zeros := String.ofList (List.replicate (places - fraction.length) '0')
        Nat.repr (n / Nat.pow 10 places) ++ "." ++ zeros ++ fraction
      else "inf"

end ScriptLexer
