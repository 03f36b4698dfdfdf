import ScriptLexer.Json

/-
  Reading JSON. Besides the standard it takes the three numbers that the printer writes by name.
  Of several members with one key the last counts, which is left to the one who looks them up.
-/

namespace ScriptLexer

/-- Why a text is refused. A whole number has a greatest length, and a value that is nested too
deep is told by what does not fit in any more. -/
inductive JsonFault
  | malformed
  | tooManyDigits (count : Nat)
  | arrayTooDeep
  | objectTooDeep
deriving DecidableEq, Repr

namespace JsonReader

/-- What was read, and the text after it. -/
abbrev Ahead (α : Type) := α × List Char

def malformed {α : Type} : Except JsonFault α := .error .malformed

def isSpace (c : Char) : Bool := c == ' ' || c == '\t' || c == '\n' || c == '\r'

def skipSpace (cs : List Char) : List Char := cs.dropWhile isSpace

/-! ## Strings -/

/-- The unit given by four hexadecimal digits in front. -/
def unit? (cs : List Char) : Option Nat :=
  let digits := cs.take 4
  if digits.length = 4 ∧ digits.all isHexDigit then some (wholeOfDigits 16 digits) else none

/-- The character of a unit by itself; one half of a pair stands for a replacement character. -/
def ofUnit (n : Nat) : Char := if n.isValidChar then Char.ofNat n else '\ufffd'

/-- The character of an escape by number, and the length of the escape after its `u`. A second
escape belongs to it if the two units make a pair. -/
def numbered? (cs : List Char) : Option (Char × Nat) := do
  let n ← unit? cs
  if 0xD800 ≤ n ∧ n < 0xDC00 then
    match cs.drop 4 with
    | '\\' :: 'u' :: rest =>
      let m ← unit? rest
      if 0xDC00 ≤ m ∧ m < 0xE000 then
        return (Char.ofNat (0x10000 + (n - 0xD800) * 0x400 + (m - 0xDC00)), 10)
      else return (ofUnit n, 4)
    | _ => return (ofUnit n, 4)
  else return (ofUnit n, 4)

/-- The character that an escape stands for, and the length of the escape after its backslash. -/
def escape? : List Char → Option (Char × Nat)
  | '"' :: _ => some ('"', 1)
  | '\\' :: _ => some ('\\', 1)
  | '/' :: _ => some ('/', 1)
  | 'b' :: _ => some ('\x08', 1)
  | 'f' :: _ => some ('\x0c', 1)
  | 'n' :: _ => some ('\n', 1)
  | 'r' :: _ => some ('\r', 1)
  | 't' :: _ => some ('\t', 1)
  | 'u' :: rest => (numbered? rest).map fun r => (r.1, r.2 + 1)
  | _ => none

/-- A string after its opening quote. -/
def string (cs : List Char) : Except JsonFault (Ahead (List Char)) :=
  match cs with
  | [] => malformed
  | '"' :: rest => .ok ([], rest)
  | '\\' :: rest =>
    match escape? rest with
    | some (c, width) => do
      let (text, after) ← string (rest.drop width)
      return (c :: text, after)
    | none => malformed
  | c :: rest =>
    if c < ' ' then malformed
    else do
      let (text, after) ← string rest
      return (c :: text, after)
termination_by cs.length
decreasing_by
  · simp only [List.length_drop, List.length_cons]
    omega
  · exact Nat.lt_succ_self _

/-! ## Numbers -/

/-- The digits in front. -/
def digits (cs : List Char) : Ahead (List Char) :=
  (cs.takeWhile Char.isDigit, cs.dropWhile Char.isDigit)

/-- The digits before the point: a lone zero, or no zero in front. -/
def wholePart? : List Char → Option (Ahead (List Char))
  | '0' :: rest => some (['0'], rest)
  | cs => if (digits cs).1 = [] then none else some (digits cs)

def fractionPart : List Char → Ahead (List Char)
  | '.' :: rest => if (digits rest).1 = [] then ([], '.' :: rest) else digits rest
  | cs => ([], cs)

/-- The exponent, if there is one. -/
def exponentPart : List Char → Ahead (Option Int)
  | mark :: rest =>
    if mark = 'e' ∨ mark = 'E' then
      let (negative, unsigned) := match rest with
        | '-' :: unsigned => (true, unsigned)
        | '+' :: unsigned => (false, unsigned)
        | _ => (false, rest)
      let (ds, after) := digits unsigned
      if ds = [] then (none, mark :: rest)
      else
        let n : Int := wholeOfDigits 10 ds
        (some (if negative then -n else n), after)
    else (none, mark :: rest)
  | [] => (none, [])

/-- A number without its sign. -/
def number (negative : Bool) (cs : List Char) : Except JsonFault (Ahead Json) :=
  match wholePart? cs with
  | none => malformed
  | some (whole, rest) =>
    let (fraction, rest) := fractionPart rest
    let (exponent, rest) := exponentPart rest
    if fraction = [] ∧ exponent.isNone then
      if wholeDigitLimit < whole.length then .error (.tooManyDigits whole.length)
      else
        let n : Int := wholeOfDigits 10 whole
        .ok (.whole (if negative then -n else n), rest)
    else
      let d : Decimal := ⟨wholeOfDigits 10 (whole ++ fraction), exponent.getD 0 - fraction.length⟩
      .ok (.number (d.toBinary64 negative), rest)

/-! ## Values -/

/-- A text that stands in front, if it does. -/
def after? (word cs : List Char) : Option (List Char) :=
  if word.isPrefixOf cs then some (cs.drop word.length) else none

/-- The values that are words. -/
def words : List (String × Json) :=
  [("null", .null), ("true", .bool true), ("false", .bool false), ("NaN", .number .nan),
   ("Infinity", .number (.infinity false)), ("-Infinity", .number (.infinity true))]

/-- A value without parts. -/
def scalar (cs : List Char) : Except JsonFault (Ahead Json) :=
  match words.findSome? fun w => (after? w.1.toList cs).map fun rest => (w.2, rest) with
  | some r => .ok r
  | none =>
    match cs with
    | '"' :: rest => (string rest).map fun r => (.text (String.ofList r.1), r.2)
    | '-' :: rest => number true rest
    | _ => number false cs

mutual

/-- A value without blanks in front, with `room` for arrays and objects inside each other. `fuel`
bounds the depth and length of what is read. -/
def value (room : Nat) : Nat → List Char → Except JsonFault (Ahead Json)
  | 0, _ => malformed
  | fuel + 1, '[' :: rest => do
    if room = 0 then throw .arrayTooDeep
    match skipSpace rest with
    | ']' :: rest => return (.array [], rest)
    | rest =>
      let (items, rest) ← items (room - 1) fuel rest
      return (.array items, rest)
  | fuel + 1, '\x7b' :: rest => do
    if room = 0 then throw .objectTooDeep
    match skipSpace rest with
    | '\x7d' :: rest => return (.object [], rest)
    | rest =>
      let (members, rest) ← members (room - 1) fuel rest
      return (.object members, rest)
  | _ + 1, cs => scalar cs

/-- The elements of an array up to its end. -/
def items (room : Nat) : Nat → List Char → Except JsonFault (Ahead (List Json))
  | 0, _ => malformed
  | fuel + 1, cs => do
    let (item, rest) ← value room fuel cs
    match skipSpace rest with
    | ']' :: rest => return ([item], rest)
    | ',' :: rest =>
      let (more, rest) ← items room fuel (skipSpace rest)
      return (item :: more, rest)
    | _ => malformed

/-- The members of an object up to its end. -/
def members (room : Nat) : Nat → List Char → Except JsonFault (Ahead (List (String × Json)))
  | 0, _ => malformed
  | fuel + 1, cs => do
    match cs with
    | '"' :: rest =>
      let (key, rest) ← string rest
      match skipSpace rest with
      | ':' :: rest =>
        let (v, rest) ← value room fuel (skipSpace rest)
        match skipSpace rest with
        | '\x7d' :: rest => return ([(String.ofList key, v)], rest)
        | ',' :: rest =>
          let (more, rest) ← members room fuel (skipSpace rest)
          return ((String.ofList key, v) :: more, rest)
        | _ => malformed
      | _ => malformed
    | _ => malformed

end

end JsonReader

namespace Json

/-- Reads a text that is one value, with `room` for arrays and objects inside the outermost one. -/
def read (room : Nat) (cs : List Char) : Except JsonFault Json := do
  let (v, rest) ← JsonReader.value (room + 1) (2 * cs.length + 2) (JsonReader.skipSpace cs)
  if JsonReader.skipSpace rest = [] then return v else throw .malformed

/-- The value of a key in an object: of the last member that has it. -/
def member? : Json → String → Option Json
  | object members, key => members.reverse.lookup key
  | _, _ => none

end Json

end ScriptLexer
