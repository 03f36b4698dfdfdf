import ScriptLexer.Toml
import ScriptLexer.Toml.Text

/-
  TOML values without parts: numbers, dates and times, strings and truth values.
-/

namespace ScriptLexer

namespace TomlReader

/-! ## Numbers -/

/-- Digits with single underscores between them, after the first one. -/
def moreDigits (isDigit : Char → Bool) : List Char → List Char × List Char
  | '_' :: c :: rest =>
    if isDigit c then
      let r := moreDigits isDigit rest
      (c :: r.1, r.2)
    else ([], '_' :: c :: rest)
  | c :: rest =>
    if isDigit c then
      let r := moreDigits isDigit rest
      (c :: r.1, r.2)
    else ([], c :: rest)
  | [] => ([], [])

/-- Digits, at least one. -/
def digits? (isDigit : Char → Bool) : List Char → Option (List Char × List Char)
  | c :: rest =>
    if isDigit c then
      let r := moreDigits isDigit rest
      some (c :: r.1, r.2)
    else none
  | [] => none

/-- The base and its digits that a letter after a zero announces. -/
def radix? : Char → Option (Nat × (Char → Bool))
  | 'x' => some (16, isHexDigit)
  | 'o' => some (8, fun c => '0' ≤ c && c ≤ '7')
  | 'b' => some (2, fun c => c == '0' || c == '1')
  | _ => none

def radixNumber? : List Char → Option (Toml × List Char)
  | '0' :: letter :: rest => do
    let (base, isDigit) ← radix? letter
    let (digits, rest) ← digits? isDigit rest
    return (.whole (wholeOfDigits base digits), rest)
  | _ => none

/-- A sign in front, and whether it is a minus. -/
def sign : List Char → Bool × List Char
  | '-' :: rest => (true, rest)
  | '+' :: rest => (false, rest)
  | cs => (false, cs)

/-- The digits before the point: a lone zero, or no zero in front. -/
def wholePart? : List Char → Option (List Char × List Char)
  | '0' :: rest => some (['0'], rest)
  | cs => digits? Char.isDigit cs

def fractionPart : List Char → List Char × List Char
  | '.' :: rest => (digits? Char.isDigit rest).getD ([], '.' :: rest)
  | cs => ([], cs)

/-- The exponent, if there is one. -/
def exponentPart : List Char → Option Int × List Char
  | mark :: rest =>
    if mark = 'e' ∨ mark = 'E' then
      let (negative, unsigned) := sign rest
      match digits? Char.isDigit unsigned with
      | some (digits, after) =>
        let n := wholeOfDigits 10 digits
        (some (if negative then -n else n), after)
      | none => (none, mark :: rest)
    else (none, mark :: rest)
  | [] => (none, [])

/-- A decimal number: whole, or with a fraction or an exponent. -/
def decimalNumber (cs : List Char) : Except TomlFault (Ahead Toml) :=
  let (negative, unsigned) := sign cs
  match wholePart? unsigned with
  | none => malformed
  | some (whole, rest) =>
    let (fraction, rest) := fractionPart rest
    let (exponent, rest) := exponentPart rest
    if fraction = [] ∧ exponent.isNone then
      if wholeDigitLimit < whole.length then .error (.tooManyDigits whole.length)
      else
        let n : Int := wholeOfDigits 10 whole
        .ok (.whole (if negative then -n else n), rest)
    else
      let d : Decimal := ⟨wholeOfDigits 10 (whole ++ fraction), exponent.getD 0 - fraction.length⟩
      .ok (.number (d.toBinary64 negative), rest)

/-- The numbers that are words. -/
def namedNumber (cs : List Char) : Except TomlFault (Ahead Toml) :=
  let (negative, unsigned) := sign cs
  match unsigned with
  | 'i' :: 'n' :: 'f' :: rest => .ok (.number (.infinity negative), rest)
  | 'n' :: 'a' :: 'n' :: rest => .ok (.number .nan, rest)
  | _ => malformed

/-! ## Dates and times -/

/-- A number of exactly `width` digits. -/
def fixed? (width : Nat) (cs : List Char) : Option (Nat × List Char) :=
  let digits := cs.take width
  if digits.length = width ∧ digits.all Char.isDigit then
    some (wholeOfDigits 10 digits, cs.drop width)
  else none

/-- One given character. -/
def mark? (mark : Char) : List Char → Option (List Char)
  | c :: rest => if c = mark then some rest else none
  | [] => none

def date? (cs : List Char) : Option (Date × List Char) := do
  let (year, cs) ← fixed? 4 cs
  let (month, cs) ← fixed? 2 (← mark? '-' cs)
  let (day, cs) ← fixed? 2 (← mark? '-' cs)
  return (⟨year, month, day⟩, cs)

/-- The part of a second, cut off after six digits. -/
def microsecond : List Char → Nat × List Char
  | '.' :: rest =>
    let digits := rest.takeWhile Char.isDigit
    if digits = [] then (0, '.' :: rest)
    else
      let six := (digits ++ List.replicate 6 '0').take 6
      (wholeOfDigits 10 six, rest.drop digits.length)
  | cs => (0, cs)

def time? (cs : List Char) : Option (TimeOfDay × List Char) := do
  let (hour, cs) ← fixed? 2 cs
  let (minute, cs) ← fixed? 2 (← mark? ':' cs)
  let (second, cs) ← fixed? 2 (← mark? ':' cs)
  guard (hour < 24 ∧ minute < 60 ∧ second < 60)
  let (micro, cs) := microsecond cs
  return (⟨hour, minute, second, micro⟩, cs)

/-- The distance from universal time in minutes. -/
def offset? : List Char → Option (Int × List Char)
  | 'Z' :: rest => some (0, rest)
  | 'z' :: rest => some (0, rest)
  | c :: rest => do
    guard (c = '+' ∨ c = '-')
    let (hour, cs) ← fixed? 2 rest
    let (minute, cs) ← fixed? 2 (← mark? ':' cs)
    guard (hour < 24 ∧ minute < 60)
    let minutes : Int := hour * 60 + minute
    return (if c = '-' then -minutes else minutes, cs)
  | [] => none

/-- A date or a time or both, if one stands in front. The outer answer is missing if none does,
and the inner reader fails if the calendar has no such date. -/
def moment? (cs : List Char) : Option (Except TomlFault (Ahead Toml)) :=
  match date? cs with
  | some (d, rest) =>
    if !d.isValid then some malformed
    else
      let clock := match rest with
        | c :: after => if c = 'T' ∨ c = 't' ∨ c = ' ' then time? after else none
        | [] => none
      match clock with
      | none => some (.ok (.moment (.date d), rest))
      | some (t, rest) =>
        match offset? rest with
        | some (offset, rest) => some (.ok (.moment (.dateTime d t (some offset)), rest))
        | none => some (.ok (.moment (.dateTime d t none), rest))
  | none => (time? cs).map fun (t, rest) => .ok (.moment (.time t), rest)

/-! ## All of them -/

/-- A value without parts. -/
def scalar (cs : List Char) : Except TomlFault (Ahead Toml) :=
  let text (r : List Char × List Char) : Toml × List Char := (.text (String.ofList r.1), r.2)
  match cs with
  | '"' :: '"' :: '"' :: rest =>
    (basicString true (dropLineFeed rest)).map fun r => text (endQuotes '"' r)
  | '"' :: rest => (basicString false rest).map text
  | '\'' :: '\'' :: '\'' :: rest =>
    (literalLines (dropLineFeed rest)).map fun r => text (endQuotes '\'' r)
  | '\'' :: rest => (literalString rest).map text
  | 't' :: 'r' :: 'u' :: 'e' :: rest => .ok (.bool true, rest)
  | 'f' :: 'a' :: 'l' :: 's' :: 'e' :: rest => .ok (.bool false, rest)
  | _ =>
    match moment? cs with
    | some r => r
    | none =>
      match radixNumber? cs with
      | some r => .ok r
      | none =>
        match (sign cs).2 with
        | c :: _ => if c.isDigit then decimalNumber cs else namedNumber cs
        | [] => malformed

end TomlReader

end ScriptLexer
