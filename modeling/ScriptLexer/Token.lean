import ScriptLexer.Span
import ScriptLexer.Number.Binary64
import ScriptLexer.Token.Operator
import ScriptLexer.Token.Word

/-
  Tokens: a kind, a span, and what was read there.
-/

namespace ScriptLexer

inductive TokenKind
  | endOfInput | number | string | word | lineComment | blockComment
  | punctuator (symbol : Punctuator)
  | assignOp | binaryOp
deriving DecidableEq, Repr

namespace TokenKind

def all : List TokenKind :=
  [endOfInput, number, string, word, lineComment, blockComment] ++
    Punctuator.all.map punctuator ++ [assignOp, binaryOp]

def label : TokenKind → String
  | endOfInput => "EOF"
  | number => "NUMBER"
  | string => "STRING"
  | word => "WORD"
  | lineComment => "SINGLE_LINE_COMMENT"
  | blockComment => "MULTI_LINE_COMMENT"
  | punctuator symbol => symbol.label
  | assignOp => "ASSIGN_OP"
  | binaryOp => "BINARY_OP"

def isComment (k : TokenKind) : Bool := k == lineComment || k == blockComment

end TokenKind

/-- What a token stands for, beyond its kind. -/
inductive TokenValue
  | none
  | number (value : Binary64)
  | text (value : String)
  | word (value : Word)
  | assign (op : AssignOp)
  | binary (op : BinaryOp)
deriving DecidableEq, Repr

/-- A token. String literals keep their source text in `raw`. -/
structure Token where
  kind : TokenKind
  span : Span
  value : TokenValue := .none
  raw : Option String := .none
deriving DecidableEq, Repr

/-- The same token, `distance` characters further on. -/
def Token.shift (t : Token) (distance : Nat) : Token := { t with span := t.span.shift distance }

end ScriptLexer
