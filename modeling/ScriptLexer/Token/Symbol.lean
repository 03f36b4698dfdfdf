import ScriptLexer.Token

/-
  Symbols: punctuators and operators, read by the longest text that fits. `Symbol.table` lists
  them all; `Symbol.atFront?` picks one from the front of a text.
-/

namespace ScriptLexer

/-- A punctuator or an operator. -/
inductive Symbol
  | punctuator (symbol : Punctuator)
  | assign (op : AssignOp)
  | binary (op : BinaryOp)
deriving DecidableEq, Repr

namespace Symbol

def table : List Symbol :=
  Punctuator.all.map punctuator ++ AssignOp.all.map assign ++ BinaryOp.all.map binary

def text : Symbol → String
  | punctuator symbol => symbol.text
  | assign op => op.text
  | binary op => op.text

def kind : Symbol → TokenKind
  | punctuator symbol => .punctuator symbol
  | assign _ => .assignOp
  | binary _ => .binaryOp

def value : Symbol → TokenValue
  | punctuator _ => .none
  | assign op => .assign op
  | binary op => .binary op

/-! ## By the leading character -/

/-- The symbol that begins with `!` and goes on with the given text. -/
def afterBang : List Char → Symbol
  | '=' :: '=' :: _ => .binary .strictNe
  | '=' :: _ => .binary .ne
  | _ => .punctuator .bang

/-- The symbol that begins with `+` and goes on with the given text. -/
def afterPlus : List Char → Symbol
  | '+' :: _ => .punctuator .increment
  | '=' :: _ => .assign .add
  | _ => .binary .add

/-- The symbol that begins with `-` and goes on with the given text. -/
def afterMinus : List Char → Symbol
  | '-' :: _ => .punctuator .decrement
  | '=' :: _ => .assign .sub
  | _ => .binary .sub

/-- The symbol that begins with `*` and goes on with the given text. -/
def afterStar : List Char → Symbol
  | '=' :: _ => .assign .mul
  | _ => .binary .mul

/-- The symbol that begins with `/` and goes on with the given text. -/
def afterSlash : List Char → Symbol
  | '=' :: _ => .assign .div
  | _ => .binary .div

/-- The symbol that begins with `%` and goes on with the given text. -/
def afterPercent : List Char → Symbol
  | '=' :: _ => .assign .mod
  | _ => .binary .mod

/-- The symbol that begins with `=` and goes on with the given text. -/
def afterEquals : List Char → Symbol
  | '=' :: '=' :: _ => .binary .strictEq
  | '=' :: _ => .binary .eq
  | '>' :: _ => .punctuator .arrow
  | _ => .assign .assign

/-- The symbol that begins with `>` and goes on with the given text. -/
def afterGreater : List Char → Symbol
  | '>' :: '>' :: '=' :: _ => .assign .zeroFillRightShift
  | '>' :: '=' :: _ => .assign .rightShift
  | '>' :: '>' :: _ => .binary .zeroFillRightShift
  | '=' :: _ => .binary .ge
  | '>' :: _ => .binary .rightShift
  | _ => .binary .gt

/-- The symbol that begins with `<` and goes on with the given text. -/
def afterLess : List Char → Symbol
  | '<' :: '=' :: _ => .assign .leftShift
  | '<' :: _ => .binary .leftShift
  | '=' :: _ => .binary .le
  | _ => .binary .lt

/-- The symbol that begins with `&` and goes on with the given text. -/
def afterAmpersand : List Char → Symbol
  | '&' :: _ => .binary .logicalAnd
  | '=' :: _ => .assign .bitAnd
  | _ => .binary .bitAnd

/-- The symbol that begins with `|` and goes on with the given text. -/
def afterBar : List Char → Symbol
  | '=' :: _ => .assign .bitOr
  | '|' :: _ => .binary .logicalOr
  | _ => .binary .bitOr

/-- The symbol that begins with `^` and goes on with the given text. -/
def afterCaret : List Char → Symbol
  | '=' :: _ => .assign .bitXor
  | _ => .binary .bitXor

/-- The symbol that begins with `.` and goes on with the given text. -/
def afterDot : List Char → Symbol
  | '.' :: '.' :: _ => .punctuator .ellipsis
  | _ => .punctuator .dot

/-- The longest symbol at the front of a text. -/
def atFront? : List Char → Option Symbol
  | '(' :: _ => some (.punctuator .leftParen)
  | ')' :: _ => some (.punctuator .rightParen)
  | '{' :: _ => some (.punctuator .leftBrace)
  | '}' :: _ => some (.punctuator .rightBrace)
  | '[' :: _ => some (.punctuator .leftBracket)
  | ']' :: _ => some (.punctuator .rightBracket)
  | ',' :: _ => some (.punctuator .comma)
  | ':' :: _ => some (.punctuator .colon)
  | ';' :: _ => some (.punctuator .semicolon)
  | '?' :: _ => some (.punctuator .question)
  | '~' :: _ => some (.punctuator .tilde)
  | '!' :: rest => some (afterBang rest)
  | '+' :: rest => some (afterPlus rest)
  | '-' :: rest => some (afterMinus rest)
  | '*' :: rest => some (afterStar rest)
  | '/' :: rest => some (afterSlash rest)
  | '%' :: rest => some (afterPercent rest)
  | '=' :: rest => some (afterEquals rest)
  | '>' :: rest => some (afterGreater rest)
  | '<' :: rest => some (afterLess rest)
  | '&' :: rest => some (afterAmpersand rest)
  | '|' :: rest => some (afterBar rest)
  | '^' :: rest => some (afterCaret rest)
  | '.' :: rest => some (afterDot rest)
  | _ => none

end Symbol

end ScriptLexer
