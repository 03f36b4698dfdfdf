import ScriptLexer.Json
import ScriptLexer.Token

/-
  Token dumps: one line of text for each token, or a JSON array with an object for each.
-/

namespace ScriptLexer

/-- The forms of a dump. -/
inductive DumpFormat
  | text | json
deriving DecidableEq, Repr

namespace DumpFormat

def all : List DumpFormat := [text, json]

def name : DumpFormat → String
  | text => "text"
  | json => "json"

/-- The format of a given name. -/
def ofName? (name : String) : Option DumpFormat := all.find? (·.name == name)

end DumpFormat

namespace Keyword

/-- A keyword by its name and text. -/
def displayed (k : Keyword) : String := s!"<Keyword.{k.label}: {quoted k.text}>"

end Keyword

namespace Word

/-- A word with all its fields. -/
def displayed (w : Word) : String :=
  let kind := s!"<WordKind.{w.kind.label}: {w.kind.number}>"
  let keyword := match w.keyword with
    | some k => k.displayed
    | none => "None"
  s!"Word(kind={kind}, text={quoted w.text}, keyword={keyword})"

end Word

namespace TokenValue

/-- A value by itself. -/
def displayed : TokenValue → String
  | none => "None"
  | number x => NumberLayout.standard.write x
  | text s => quoted s
  | word w => w.displayed
  | assign op => s!"<AssignOp.{op.label}: {quoted op.text}>"
  | binary op => s!"<BinaryOp.{op.label}: {quoted op.text}>"

end TokenValue

namespace Token

/-- What a token is, without its span. The kinds of literals show their value, whatever it is. -/
def description (t : Token) : String :=
  let raw := match t.raw with
    | some s => quoted s
    | none => "None"
  match t.kind, t.value with
  | .number, value => s!"Number({value.displayed})"
  | .string, value => s!"String({value.displayed}, raw={raw})"
  | .word, .word w =>
    match w.keyword with
    | some _ => s!"Keyword({w.text})"
    | none => s!"{w.kind.title}({quoted w.text})"
  | _, .assign op => s!"AssignOp({op.text})"
  | _, .binary op => s!"BinaryOp({op.text})"
  | kind, _ => kind.label

/-- The line of a token, without its break. -/
def line (t : Token) : String := s!"{t.description} @ {t.span.start}..{t.span.stop}"

/-- The members that show a value; the numbers that JSON lacks are given as text. -/
def valueMembers : TokenValue → List (String × Json)
  | .none => []
  | .number x => [("value", if x.isFinite then .number x else .text (Json.layout.write x))]
  | .text s => [("value", .text s)]
  | .word w => [("word", .text w.kind.label), ("value", .text w.text)]
  | .assign op => [("value", .text op.text)]
  | .binary op => [("value", .text op.text)]

def toJson (t : Token) : Json :=
  let raw := match t.raw with
    | some s => [("raw", Json.text s)]
    | none => []
  .object ([("kind", .text t.kind.label),
      ("span", .array [.whole t.span.start, .whole t.span.stop])] ++ valueMembers t.value ++ raw)

end Token

/-- The lines of tokens. -/
def dumpText (tokens : List Token) : String := String.join (tokens.map fun t => t.line ++ "\n")

/-- The JSON array of tokens. -/
def dumpJson (tokens : List Token) : String :=
  (Json.array (tokens.map Token.toJson)).render ++ "\n"

def dump (format : DumpFormat) (tokens : List Token) : String :=
  match format with
  | .text => dumpText tokens
  | .json => dumpJson tokens

end ScriptLexer
