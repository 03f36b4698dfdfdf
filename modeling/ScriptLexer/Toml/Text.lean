import ScriptLexer.Number.Decimal

/-
  The text of a TOML document: blanks and comments, strings, and keys. Each part of the grammar
  takes what it reads from the front of a text and leaves the rest (`Ahead`).
-/

namespace ScriptLexer

/-- Why a document is refused. A whole number in decimal has a greatest length, and values cannot
be nested without end. -/
inductive TomlFault
  | malformed
  | tooManyDigits (count : Nat)
  | tooDeep
deriving DecidableEq, Repr

namespace TomlReader

/-- What a part of the grammar read, and the text after it. -/
abbrev Ahead (α : Type) := α × List Char

def malformed {α : Type} : Except TomlFault α := .error .malformed

/-! ## Blanks and comments -/

def isSpace (c : Char) : Bool := c == ' ' || c == '\t'

/-- The control characters, which stand nowhere but for the tab and, in its place, the line feed. -/
def isControl (c : Char) : Bool := (c < ' ' && c != '\t') || c == '\x7f'

def skipSpace (cs : List Char) : List Char := cs.dropWhile isSpace

/-- Passes over a comment up to the end of its line. -/
def skipComment : List Char → Except TomlFault (List Char)
  | '#' :: rest =>
    if (rest.takeWhile (· != '\n')).any isControl then malformed
    else .ok (rest.dropWhile (· != '\n'))
  | cs => .ok cs

/-- Passes over blanks, line feeds and comments. -/
def skipLines (inComment : Bool) : List Char → Except TomlFault (List Char)
  | [] => .ok []
  | c :: rest =>
    if c = '\n' then skipLines false rest
    else if inComment then (if isControl c then malformed else skipLines true rest)
    else if isSpace c then skipLines false rest
    else if c = '#' then skipLines true rest
    else .ok (c :: rest)

/-! ## Strings -/

/-- The character with a number given by hexadecimal digits. -/
def numbered? (width : Nat) (cs : List Char) : Option Char :=
  let digits := cs.take width
  let n := wholeOfDigits 16 digits
  if digits.length = width ∧ digits.all isHexDigit ∧ n.isValidChar then some (Char.ofNat n)
  else none

/-- The character that an escape stands for, and the length of the escape after its backslash. -/
def escape? : List Char → Option (Char × Nat)
  | 'b' :: _ => some ('\x08', 1)
  | 't' :: _ => some ('\t', 1)
  | 'n' :: _ => some ('\n', 1)
  | 'f' :: _ => some ('\x0c', 1)
  | 'r' :: _ => some ('\r', 1)
  | '"' :: _ => some ('"', 1)
  | '\\' :: _ => some ('\\', 1)
  | 'u' :: rest => (numbered? 4 rest).map fun c => (c, 5)
  | 'U' :: rest => (numbered? 8 rest).map fun c => (c, 9)
  | _ => none

/-- The text after a line that a backslash joins to the next one, if blanks end the line. -/
def joinLines? (cs : List Char) : Option (List Char) :=
  match cs with
  | c :: _ =>
    if isSpace c || c = '\n' then
      match cs.dropWhile isSpace with
      | [] => some []
      | '\n' :: rest => some (rest.dropWhile fun c => isSpace c || c == '\n')
      | _ => none
    else none
  | [] => none

theorem length_dropWhile_le (p : Char → Bool) (cs : List Char) :
    (cs.dropWhile p).length ≤ cs.length :=
  (List.dropWhile_sublist p).length_le

theorem length_joinLines? {cs rest : List Char} (h : joinLines? cs = some rest) :
    rest.length ≤ cs.length := by
  cases cs with
  | nil => simp [joinLines?] at h
  | cons c tail =>
    have space := length_dropWhile_le isSpace (c :: tail)
    simp only [joinLines?] at h
    split at h
    · split at h
      · cases h
        simp
      · rename_i after e
        cases h
        rw [e] at space
        have := length_dropWhile_le (fun c => isSpace c || c == '\n') after
        simp only [List.length_cons] at space ⊢
        omega
      · cases h
    · cases h

/-- A string after its opening quotes; over several lines it ends at three quotes. -/
def basicString (lines : Bool) (cs : List Char) : Except TomlFault (Ahead (List Char)) :=
  match cs with
  | [] => malformed
  | '\\' :: rest =>
    match _joined : if lines then joinLines? rest else none with
    | some after => basicString lines after
    | none =>
      match escape? rest with
      | some (c, width) => do
        let (text, after) ← basicString lines (rest.drop width)
        return (c :: text, after)
      | none => malformed
  | '"' :: rest =>
    if !lines then .ok ([], rest)
    else match rest with
      | '"' :: '"' :: after => .ok ([], after)
      | rest => do
        let (text, after) ← basicString lines rest
        return ('"' :: text, after)
  | c :: rest =>
    if isControl c && !(lines && c == '\n') then malformed
    else do
      let (text, after) ← basicString lines rest
      return (c :: text, after)
termination_by cs.length
decreasing_by
  · have : joinLines? rest = some after := by
      cases lines with
      | true => simpa using _joined
      | false => simp at _joined
    have := length_joinLines? this
    simp only [List.length_cons]
    omega
  · simp only [List.length_drop, List.length_cons]
    omega
  · exact Nat.lt_succ_self _
  · exact Nat.lt_succ_self _

/-- A string without escapes on one line, after its opening quote. -/
def literalString (cs : List Char) : Except TomlFault (Ahead (List Char)) :=
  let text := cs.takeWhile (· != '\'')
  match cs.dropWhile (· != '\'') with
  | _ :: after => if text.any isControl then malformed else .ok (text, after)
  | [] => malformed

/-- A string without escapes over several lines, after its opening quotes. -/
def literalLines : List Char → Except TomlFault (Ahead (List Char))
  | [] => malformed
  | '\'' :: '\'' :: '\'' :: after => .ok ([], after)
  | c :: rest =>
    if isControl c && c != '\n' then malformed
    else do
      let (text, after) ← literalLines rest
      return (c :: text, after)

/-- Up to two more quotes may stand at the end of several lines; they belong to the text. -/
def endQuotes (quote : Char) (r : List Char × List Char) : List Char × List Char :=
  let extra := (r.2.takeWhile (· == quote)).length.min 2
  (r.1 ++ List.replicate extra quote, r.2.drop extra)

/-- The first line feed of a text over several lines does not count. -/
def dropLineFeed : List Char → List Char
  | '\n' :: rest => rest
  | cs => cs

/-! ## Keys -/

def isBareKey (c : Char) : Bool := c.isAlphanum || c == '-' || c == '_'

def keyPart : List Char → Except TomlFault (Ahead (List Char))
  | '"' :: rest => basicString false rest
  | '\'' :: rest => literalString rest
  | cs =>
    let key := cs.takeWhile isBareKey
    if key = [] then malformed else .ok (key, cs.drop key.length)

/-- The parts of a key, and the blanks after it. `fuel` bounds their number. -/
def dottedKey (fuel : Nat) (cs : List Char) : Except TomlFault (Ahead (List String)) := do
  let (part, rest) ← keyPart cs
  match fuel, skipSpace rest with
  | fuel + 1, '.' :: rest =>
    let (parts, rest) ← dottedKey fuel (skipSpace rest)
    return (String.ofList part :: parts, rest)
  | _, rest => return ([String.ofList part], rest)

end TomlReader

end ScriptLexer
