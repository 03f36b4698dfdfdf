/-
  Punctuators and operators: which there are, how they are written, and the names under which a
  dump shows them.
-/

namespace ScriptLexer

/-- The symbols that are no operator. -/
inductive Punctuator
  | leftParen | rightParen | leftBrace | rightBrace | leftBracket | rightBracket | comma | dot
  | ellipsis | bang | semicolon | colon | question | tilde | increment | decrement | arrow
deriving DecidableEq, Repr

namespace Punctuator

def all : List Punctuator :=
  [leftParen, rightParen, leftBrace, rightBrace, leftBracket, rightBracket, comma, dot,
   ellipsis, bang, semicolon, colon, question, tilde, increment, decrement, arrow]

def text : Punctuator → String
  | leftParen => "("
  | rightParen => ")"
  | leftBrace => "\x7b"
  | rightBrace => "\x7d"
  | leftBracket => "["
  | rightBracket => "]"
  | comma => ","
  | dot => "."
  | ellipsis => "..."
  | bang => "!"
  | semicolon => ";"
  | colon => ":"
  | question => "?"
  | tilde => "~"
  | increment => "++"
  | decrement => "--"
  | arrow => "=>"

/-- The name under which a dump shows the punctuator. -/
def label : Punctuator → String
  | leftParen => "LPAREN"
  | rightParen => "RPAREN"
  | leftBrace => "LBRACE"
  | rightBrace => "RBRACE"
  | leftBracket => "LBRACKET"
  | rightBracket => "RBRACKET"
  | comma => "COMMA"
  | dot => "DOT"
  | ellipsis => "DOT_DOT_DOT"
  | bang => "BANG"
  | semicolon => "SEMICOLON"
  | colon => "COLON"
  | question => "QUESTION"
  | tilde => "TILDE"
  | increment => "PLUS_PLUS"
  | decrement => "MINUS_MINUS"
  | arrow => "ARROW"

end Punctuator

/-- The operators that assign. -/
inductive AssignOp
  | assign | add | sub | mul | div | mod | bitOr | bitXor | bitAnd | zeroFillRightShift
  | rightShift | leftShift
deriving DecidableEq, Repr

namespace AssignOp

def all : List AssignOp :=
  [assign, add, sub, mul, div, mod, bitOr, bitXor, bitAnd, zeroFillRightShift, rightShift,
   leftShift]

def text : AssignOp → String
  | assign => "="
  | add => "+="
  | sub => "-="
  | mul => "*="
  | div => "/="
  | mod => "%="
  | bitOr => "|="
  | bitXor => "^="
  | bitAnd => "&="
  | zeroFillRightShift => ">>>="
  | rightShift => ">>="
  | leftShift => "<<="

def label : AssignOp → String
  | assign => "ASSIGN"
  | add => "ADD_ASSIGN"
  | sub => "SUB_ASSIGN"
  | mul => "MUL_ASSIGN"
  | div => "DIV_ASSIGN"
  | mod => "MOD_ASSIGN"
  | bitOr => "BIT_OR_ASSIGN"
  | bitXor => "BIT_XOR_ASSIGN"
  | bitAnd => "BIT_AND_ASSIGN"
  | zeroFillRightShift => "ZERO_FILL_RIGHT_SHIFT_ASSIGN"
  | rightShift => "RIGHT_SHIFT_ASSIGN"
  | leftShift => "LEFT_SHIFT_ASSIGN"

end AssignOp

/-- The operators between two operands. -/
inductive BinaryOp
  | lt | le | gt | ge | leftShift | rightShift | zeroFillRightShift | eq | strictEq | ne
  | strictNe | add | sub | mul | div | mod | bitOr | bitXor | bitAnd | logicalOr | logicalAnd
deriving DecidableEq, Repr

namespace BinaryOp

def all : List BinaryOp :=
  [lt, le, gt, ge, leftShift, rightShift, zeroFillRightShift, eq, strictEq, ne, strictNe, add,
   sub, mul, div, mod, bitOr, bitXor, bitAnd, logicalOr, logicalAnd]

def text : BinaryOp → String
  | lt => "<"
  | le => "<="
  | gt => ">"
  | ge => ">="
  | leftShift => "<<"
  | rightShift => ">>"
  | zeroFillRightShift => ">>>"
  | eq => "=="
  | strictEq => "==="
  | ne => "!="
  | strictNe => "!=="
  | add => "+"
  | sub => "-"
  | mul => "*"
  | div => "/"
  | mod => "%"
  | bitOr => "|"
  | bitXor => "^"
  | bitAnd => "&"
  | logicalOr => "||"
  | logicalAnd => "&&"

def label : BinaryOp → String
  | lt => "LT"
  | le => "LE"
  | gt => "GT"
  | ge => "GE"
  | leftShift => "LSHIFT"
  | rightShift => "RSHIFT"
  | zeroFillRightShift => "ZERO_FILL_RSHIFT"
  | eq => "EQ"
  | strictEq => "EQ_EQ"
  | ne => "NE"
  | strictNe => "NE_NE"
  | add => "ADD"
  | sub => "SUB"
  | mul => "MUL"
  | div => "DIV"
  | mod => "MOD"
  | bitOr => "BIT_OR"
  | bitXor => "BIT_XOR"
  | bitAnd => "BIT_AND"
  | logicalOr => "LOGICAL_OR"
  | logicalAnd => "LOGICAL_AND"

end BinaryOp

end ScriptLexer
