/-
  The characters that the lexer tells apart.
-/

namespace ScriptLexer

/-- ASCII letters, `$` and `_` begin an identifier. -/
def isIdentStart (c : Char) : Bool := c.isAlpha || c == '$' || c == '_'

/-- An identifier goes on with what begins one, a digit or a zero-width non-joiner. -/
def isIdentPart (c : Char) : Bool := isIdentStart c || c.isDigit || c == '\u200c'

/-- The characters that end a line comment. -/
def isLineTerminator (c : Char) : Bool :=
  c == '\n' || c == '\r' || c == '\u2028' || c == '\u2029'

/-- Unicode white space, and the byte-order mark. -/
def isBlank (c : Char) : Bool :=
  ('\t' ≤ c && c ≤ '\r') || c == ' ' || c == '\u0085' || c == '\u00a0' || c == '\u1680' ||
  ('\u2000' ≤ c && c ≤ '\u200a') || c == '\u2028' || c == '\u2029' || c == '\u202f' ||
  c == '\u205f' || c == '\u3000' || c == '\ufeff'

/-- The digits `0` to `7`. -/
def isOctalDigit (c : Char) : Bool := '0' ≤ c && c ≤ '7'

theorem isIdentPart_of_isIdentStart {c : Char} (h : isIdentStart c) : isIdentPart c := by
  simp [isIdentPart, h]

end ScriptLexer
