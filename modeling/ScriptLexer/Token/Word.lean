/-
  Words: keywords, literal words and identifiers. What a word is follows from its text alone
  (`Word.ofText`).
-/

namespace ScriptLexer

/-- The reserved words. -/
inductive Keyword
  | kwBreak | kwCase | kwCatch | kwClass | kwConst | kwContinue | kwDebugger | kwDefault
  | kwDelete | kwDo | kwElse | kwExport | kwExtends | kwFinally | kwFor | kwFunction | kwIf
  | kwImport | kwIn | kwInstanceof | kwNew | kwReturn | kwLet | kwSuper | kwSwitch | kwThis
  | kwThrow | kwTry | kwTypeof | kwVar | kwVoid | kwWhile | kwWith | kwYield
deriving DecidableEq, Repr

namespace Keyword

def all : List Keyword :=
  [kwBreak, kwCase, kwCatch, kwClass, kwConst, kwContinue, kwDebugger, kwDefault, kwDelete,
   kwDo, kwElse, kwExport, kwExtends, kwFinally, kwFor, kwFunction, kwIf, kwImport, kwIn,
   kwInstanceof, kwNew, kwReturn, kwLet, kwSuper, kwSwitch, kwThis, kwThrow, kwTry, kwTypeof,
   kwVar, kwVoid, kwWhile, kwWith, kwYield]

def text : Keyword → String
  | kwBreak => "break"
  | kwCase => "case"
  | kwCatch => "catch"
  | kwClass => "class"
  | kwConst => "const"
  | kwContinue => "continue"
  | kwDebugger => "debugger"
  | kwDefault => "default"
  | kwDelete => "delete"
  | kwDo => "do"
  | kwElse => "else"
  | kwExport => "export"
  | kwExtends => "extends"
  | kwFinally => "finally"
  | kwFor => "for"
  | kwFunction => "function"
  | kwIf => "if"
  | kwImport => "import"
  | kwIn => "in"
  | kwInstanceof => "instanceof"
  | kwNew => "new"
  | kwReturn => "return"
  | kwLet => "let"
  | kwSuper => "super"
  | kwSwitch => "switch"
  | kwThis => "this"
  | kwThrow => "throw"
  | kwTry => "try"
  | kwTypeof => "typeof"
  | kwVar => "var"
  | kwVoid => "void"
  | kwWhile => "while"
  | kwWith => "with"
  | kwYield => "yield"

def label (k : Keyword) : String := k.text.toUpper

/-- The keyword with exactly this text. -/
def ofText? (text : String) : Option Keyword := all.find? (·.text == text)

end Keyword

/-- What a word is. -/
inductive WordKind
  | keyword | identifier | trueLiteral | falseLiteral | nullLiteral
deriving DecidableEq, Repr

namespace WordKind

def label : WordKind → String
  | keyword => "KEYWORD"
  | identifier => "IDENTIFIER"
  | trueLiteral => "TRUE"
  | falseLiteral => "FALSE"
  | nullLiteral => "NULL"

/-- The name in running text. -/
def title : WordKind → String
  | keyword => "Keyword"
  | identifier => "Identifier"
  | trueLiteral => "True"
  | falseLiteral => "False"
  | nullLiteral => "Null"

/-- The place in the order of kinds, from one. -/
def number : WordKind → Nat
  | keyword => 1
  | identifier => 2
  | trueLiteral => 3
  | falseLiteral => 4
  | nullLiteral => 5

/-- The words that are literals, with their kinds. -/
def literals : List (String × WordKind) :=
  [("true", trueLiteral), ("false", falseLiteral), ("null", nullLiteral)]

end WordKind

/-- A word: its kind, its text and, if it is one, the keyword. -/
structure Word where
  kind : WordKind
  text : String
  keyword : Option Keyword := none
deriving DecidableEq, Repr

/-- The word with the given text. -/
def Word.ofText (text : String) : Word :=
  match Keyword.ofText? text with
  | some k => ⟨.keyword, text, some k⟩
  | none => ⟨(WordKind.literals.lookup text).getD .identifier, text, none⟩

end ScriptLexer
