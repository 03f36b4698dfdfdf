import ScriptLexer.Text.Printable

/-
  Quoted text: the form in which dumps and messages show a text on one line. `Quoted.body` escapes
  it, `quoted` puts it between quotes. The ASCII form escapes everything beyond ASCII as well.
-/

namespace ScriptLexer

namespace Quoted

/-- Hexadecimal digits of a number, padded to a width. -/
def hex (width n : Nat) : List Char :=
  let digits := Nat.toDigits 16 n
  List.replicate (width - digits.length) '0' ++ digits

/-- A character by its number: two, four or eight digits. -/
def numeric (c : Char) : List Char :=
  let n := c.toNat
  if n < 0x100 then '\\' :: 'x' :: hex 2 n
  else if n < 0x10000 then '\\' :: 'u' :: hex 4 n
  else '\\' :: 'U' :: hex 8 n

/-- Single quotes, unless the text has a single quote and no double one. -/
def quoteFor (text : List Char) : Char :=
  if text.contains '\'' && !text.contains '"' then '"' else '\''

/-- One character between quotes; `plain` says which characters stand for themselves. -/
def escape (plain : Char → Bool) (quote c : Char) : List Char :=
  if c = quote || c = '\\' then ['\\', c]
  else if c = '\n' then ['\\', 'n']
  else if c = '\r' then ['\\', 'r']
  else if c = '\t' then ['\\', 't']
  else if plain c then [c]
  else numeric c

/-- What stands between the quotes. -/
def body (plain : Char → Bool) (text : List Char) : List Char :=
  text.flatMap (escape plain (quoteFor text))

def isPlainAscii (c : Char) : Bool := c.toNat < 0x80 && isPrintable c

end Quoted

/-- A text in quotes. -/
def quoted (text : String) : String :=
  let cs := text.toList
  let q := Quoted.quoteFor cs
  String.ofList (q :: Quoted.body isPrintable cs ++ [q])

/-- The ASCII form of a text, without its quotes. -/
def escapedAscii (text : String) : String :=
  String.ofList (Quoted.body Quoted.isPlainAscii text.toList)

end ScriptLexer
