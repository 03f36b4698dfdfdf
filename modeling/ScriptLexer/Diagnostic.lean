import ScriptLexer.Span
import ScriptLexer.Text.Quoted

/-
  Diagnostics: what is wrong with a source text, on which character and where. Their message quotes
  the character for the kinds that are about a single one.
-/

namespace ScriptLexer

/-- What can be wrong with a source text. -/
inductive DiagnosticKind
  | unexpectedToken | invalidOrUnexpectedToken | unexpectedNumber | legacyDecimalEscape
  | legacyOctalLiteral | unterminatedString | unterminatedComment | invalidNumericLiteral
deriving DecidableEq, Repr

namespace DiagnosticKind

/-- The kind in words. -/
def text : DiagnosticKind → String
  | unexpectedToken => "unexpected token"
  | invalidOrUnexpectedToken => "invalid or unexpected token"
  | unexpectedNumber => "unexpected number"
  | legacyDecimalEscape => "Legacy decimal escape is not permitted in strict mode"
  | legacyOctalLiteral => "Legacy octal literals are not available"
  | unterminatedString => "unterminated string literal"
  | unterminatedComment => "unterminated comment"
  | invalidNumericLiteral => "invalid numeric literal"

/-- The kinds whose message quotes the character. -/
def quotesChar : DiagnosticKind → Bool
  | unexpectedToken | invalidOrUnexpectedToken | unexpectedNumber => true
  | _ => false

/-- Notations from before strict mode; they warn instead of failing. -/
def isLegacy : DiagnosticKind → Bool
  | legacyDecimalEscape | legacyOctalLiteral => true
  | _ => false

end DiagnosticKind

/-- A diagnostic; nothing ties a hand-made one to a single character. -/
structure Diagnostic where
  kind : DiagnosticKind
  char : String
  span : Span
deriving DecidableEq, Repr

namespace Diagnostic

/-- A text as a message quotes it: nothing means the end of the input, and what cannot be printed
is escaped. -/
def displayed (char : String) : String :=
  if char.isEmpty then "end of input"
  else if char.toList.all isPrintable then char
  else escapedAscii char

def message (d : Diagnostic) : String :=
  if d.kind.quotesChar then s!"{d.kind.text} `{displayed d.char}`" else d.kind.text

def isLegacy (d : Diagnostic) : Bool := d.kind.isLegacy

/-- The same diagnostic, `distance` characters further on. -/
def shift (d : Diagnostic) (distance : Nat) : Diagnostic :=
  { d with span := d.span.shift distance }

end Diagnostic

end ScriptLexer
