import ScriptLexer.Token.Symbol
import ScriptLexer.Scan.WordRun
import ScriptLexer.Scan.Numeral
import ScriptLexer.Scan.Enclosed
import ScriptLexer.Diagnostic.Snippet

/-
  The scan of a source text: blanks are passed over, and everything else is read construct by
  construct. Faults do not end it; a character that can begin no construct does. `Scan.ofText` is
  total, and each step of it depends on the text ahead alone. A source is a row of Unicode scalar
  values, as decoding a file gives it (`Utf8.decode`): half of a surrogate pair is no character of
  its own.
-/

namespace ScriptLexer

theorem Symbol.text_length_pos (s : Symbol) : 0 < s.text.length := by
  cases s with
  | punctuator symbol => cases symbol <;> decide
  | assign op => cases op <;> decide
  | binary op => cases op <;> decide

/-- The construct of a symbol. -/
def readSymbol (s : Symbol) : Construct :=
  { kind := s.kind, value := s.value, size := s.text.length, taken := s.text.length
    size_pos := s.text_length_pos, size_le_taken := Nat.le_refl _ }

/-- The construct that begins with `head`, unless none can. -/
def Construct.atFront? (head : Char) (rest : List Char) : Option Construct :=
  if head = '"' ∨ head = '\'' then some (readString head rest)
  else if head.isDigit then some (readNumber head rest)
  else if isIdentStart head then some (readWord head rest)
  else match head, rest with
    | '.', next :: _ => if next.isDigit then some (readDecimal head rest) else symbol
    | '/', '/' :: body => some (readLineComment body)
    | '/', '*' :: body => some (readBlockComment body)
    | _, _ => symbol
where
  symbol : Option Construct := (Symbol.atFront? (head :: rest)).map readSymbol

/-- Tokens and diagnostics of a source text, and the offset and character at which the scan
stopped if it did not reach the end. -/
structure Scan where
  tokens : List Token := []
  diagnostics : List Diagnostic := []
  stop : Option (Nat × Char) := none
deriving DecidableEq, Repr

namespace Scan

/-- The scan that reads a construct at `offset` and then goes on. -/
def cons (k : Construct) (offset : Nat) (s : Scan) : Scan :=
  ⟨k.token offset :: s.tokens, k.diagnostics offset ++ s.diagnostics, s.stop⟩

/-- The scan that stops at a character which can begin nothing. -/
def stopped (offset : Nat) (c : Char) : Scan :=
  ⟨[], [(Fault.mk .unexpectedToken c 0 1).diagnostic offset], some (offset, c)⟩

/-- Scans a text of which the first character stands at `offset`. -/
def startingAt (offset : Nat) : List Char → Scan
  | [] => {}
  | c :: rest =>
    if isBlank c then Scan.startingAt (offset + 1) rest
    else match Construct.atFront? c rest with
      | none => stopped offset c
      | some k => cons k offset (Scan.startingAt (offset + k.taken) (rest.drop (k.taken - 1)))
termination_by text => text.length
decreasing_by
  · simp
  · simp only [List.length_drop, List.length_cons]
    omega

/-- The scan of a whole source text. -/
def ofText (source : String) : Scan := Scan.startingAt 0 source.toList

/-- The tokens of a source text without any diagnostic. -/
def strict (source : String) : Except LexError (List Token) :=
  let scan := ofText source
  if scan.diagnostics.isEmpty then .ok scan.tokens else .error ⟨scan.diagnostics, source⟩

end Scan

end ScriptLexer
