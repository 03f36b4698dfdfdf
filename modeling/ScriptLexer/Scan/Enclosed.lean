import ScriptLexer.Scan.Construct
import ScriptLexer.Text.CharClass

/-
  Constructs with an end of their own: string literals and comments. A string or block comment
  that is never closed goes on to the end of the text and is reported as a whole.
-/

namespace ScriptLexer

/-! ## Strings -/

/-- What a character stands for after a backslash. -/
def unescape : Char → Char
  | 'n' => '\n'
  | 'r' => '\r'
  | 't' => '\t'
  | c => c

/-- A string literal after its opening quote: the decoded text, the length with the closing quote,
and whether there is one. -/
structure StringBody where
  value : List Char
  length : Nat
  closed : Bool
deriving DecidableEq, Repr

/-- Puts a character in front that takes `width` characters of the source. -/
def StringBody.cons (c : Char) (width : Nat) (b : StringBody) : StringBody :=
  ⟨c :: b.value, width + b.length, b.closed⟩

/-- Reads up to the closing quote. A backslash at the end of the text stands for nothing. -/
def stringBody (quote : Char) : List Char → StringBody
  | [] => ⟨[], 0, false⟩
  | ['\\'] => ⟨[], 1, false⟩
  | '\\' :: c :: rest => (stringBody quote rest).cons (unescape c) 2
  | c :: rest => if c = quote then ⟨[], 1, true⟩ else (stringBody quote rest).cons c 1

/-- The string literal that begins with `quote`. -/
def readString (quote : Char) (rest : List Char) : Construct :=
  let body := stringBody quote rest
  let size := 1 + body.length
  { kind := .string
    value := .text (String.ofList body.value)
    raw := some (String.ofList ((quote :: rest).take size))
    size := size
    taken := size
    faults := if body.closed then [] else [⟨.unterminatedString, quote, 0, size⟩]
    size_pos := Nat.lt_of_lt_of_le Nat.zero_lt_one (Nat.le_add_right _ _)
    size_le_taken := Nat.le_refl _ }

/-! ## Comments -/

/-- The length of a line comment after its slashes; the line terminator belongs to it. -/
def lineCommentLength : List Char → Nat
  | [] => 0
  | c :: rest => if isLineTerminator c then 1 else 1 + lineCommentLength rest

/-- The line comment with `rest` after its slashes. -/
def readLineComment (rest : List Char) : Construct :=
  let size := 2 + lineCommentLength rest
  { kind := .lineComment, size := size, taken := size
    size_pos := Nat.lt_of_lt_of_le Nat.two_pos (Nat.le_add_right _ _)
    size_le_taken := Nat.le_refl _ }

/-- The length of a block comment after its opening, and whether it is closed. -/
def blockComment : List Char → Nat × Bool
  | [] => (0, false)
  | '*' :: '/' :: _ => (2, true)
  | _ :: rest =>
    let body := blockComment rest
    (1 + body.1, body.2)

/-- The block comment with `rest` after its opening. -/
def readBlockComment (rest : List Char) : Construct :=
  let body := blockComment rest
  let size := 2 + body.1
  { kind := .blockComment
    size := size
    taken := size
    faults := if body.2 then [] else [⟨.unterminatedComment, '*', 0, size⟩]
    size_pos := Nat.lt_of_lt_of_le Nat.two_pos (Nat.le_add_right _ _)
    size_le_taken := Nat.le_refl _ }

end ScriptLexer
