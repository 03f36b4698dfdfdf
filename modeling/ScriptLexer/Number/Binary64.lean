/-
  Binary64 numbers in exact arithmetic. The finite magnitudes and infinity, in increasing order,
  are numbered from zero on; this number is the rank of the magnitude, and it is also the bit
  pattern without the sign. Finite magnitudes are natural multiples of 2^-1074 (`magnitude`), so
  rounding is a question about a quotient of natural numbers (`nearestRank`).
-/

namespace ScriptLexer

namespace Binary64

/-- Where infinity stands among the magnitudes. -/
def infinityRank : Nat := 2047 * Nat.pow 2 52

end Binary64

/-- A binary64 number: not a number, or a sign and the rank of a magnitude. -/
inductive Binary64
  | nan
  | signed (negative : Bool) (rank : Fin (Binary64.infinityRank + 1))
deriving DecidableEq, Repr

namespace Binary64

/-- The quotient rounded to the nearest natural number, a half to the even neighbour. -/
def roundHalfEven (num den : Nat) : Nat :=
  let q := num / den
  let r := num % den
  if 2 * r < den then q else if den < 2 * r then q + 1 else q + q % 2

/-- The magnitude of a finite rank, in units of 2^-1074. -/
def magnitude (rank : Nat) : Nat :=
  if rank < Nat.pow 2 52 then rank
  else (Nat.pow 2 52 + rank % Nat.pow 2 52) * Nat.pow 2 (rank / Nat.pow 2 52 - 1)

/-- The rank nearest to a quotient in units of 2^-1074, ties to the even rank. Ranks above
infinity stand for overflow. -/
def nearestRank (num den : Nat) : Nat :=
  let shift := (num / den).log2 - 52
  shift * Nat.pow 2 52 + roundHalfEven num (den * Nat.pow 2 shift)

/-- The number of the given sign and rank; above infinity there is nothing. -/
def ofRank (negative : Bool) (rank : Nat) : Binary64 :=
  .signed negative ⟨min rank infinityRank, by omega⟩

/-- The number nearest to `num / den` in units of 2^-1074. -/
def ofScaled (negative : Bool) (num den : Nat) : Binary64 :=
  ofRank negative (nearestRank num den)

/-- The number nearest to `num / den`. -/
def ofRatio (negative : Bool) (num den : Nat) : Binary64 :=
  ofScaled negative (num * Nat.pow 2 1074) den

def zero : Binary64 := ofRank false 0

theorem ofRatio_zero : ofRatio false 0 1 = zero := by decide +kernel

def infinity (negative : Bool) : Binary64 := ofRank negative infinityRank

def isFinite : Binary64 → Bool
  | nan => false
  | signed _ rank => rank.val < infinityRank

/-! ## Whole numbers -/

/-- The nearest number, unless the whole number lies beyond the finite ones. -/
def ofInt? (n : Int) : Option Binary64 :=
  let x := ofRatio (n < 0) n.natAbs 1
  if x.isFinite then some x else none

/-- The quotient of two whole numbers, rounded once. A zero takes the sign that the signs of the
two give, and a quotient beyond the finite numbers is refused. -/
def divide? (a b : Int) : Option Binary64 :=
  let x := ofRatio (decide (a < 0) != decide (b < 0)) a.natAbs b.natAbs
  if x.isFinite then some x else none

/-! ## Arithmetic -/

/-- A positive whole multiple, rounded once. -/
def times : Binary64 → Nat → Binary64
  | nan, _ => nan
  | signed negative rank, n =>
    if rank.val < infinityRank then ofScaled negative (magnitude rank * n) 1
    else infinity negative

/-- The signed value of a finite number, in units of 2^-1074. -/
def scaledValue (negative : Bool) (rank : Nat) : Int :=
  if negative then -(magnitude rank : Int) else magnitude rank

/-- The difference, rounded once. Opposite infinities keep their sign, equal ones have no
difference, and an exact zero is positive unless it is minus zero less plus zero. -/
def sub : Binary64 → Binary64 → Binary64
  | nan, _ => nan
  | _, nan => nan
  | signed sx x, signed sy y =>
    if x.val < infinityRank then
      if y.val < infinityRank then
        let d := scaledValue sx x - scaledValue sy y
        if d = 0 then ofRank (sx && !sy && x.val == 0) 0
        else ofScaled (d < 0) d.natAbs 1
      else infinity (!sy)
    else if y.val < infinityRank then infinity sx
    else if sx = sy then nan else infinity sx

end Binary64

end ScriptLexer
