import ScriptLexer.Number.Layout
import ScriptLexer.Text.Quoted

/-
  JSON values and how they are written: two blanks for each level, one element or member on a
  line, and nothing beyond ASCII.
-/

namespace ScriptLexer

/-- A JSON value. Whole numbers are kept apart from those with a point or an exponent, and the
members of an object in their order. -/
inductive Json
  | null
  | bool (value : Bool)
  | whole (value : Int)
  | number (value : Binary64)
  | text (value : String)
  | array (items : List Json)
  | object (members : List (String × Json))
deriving Repr

namespace Json

/-- Numbers as in plain text; the three that JSON lacks are written by their names. -/
def layout : NumberLayout :=
  { NumberLayout.standard with infinity := "Infinity", notANumber := "NaN" }

/-- A sixteen-bit unit by its number. -/
def unit (n : Nat) : List Char := '\\' :: 'u' :: Quoted.hex 4 n

/-- A character inside a string; beyond the sixteen-bit range it takes a pair of units. -/
def escape (c : Char) : List Char :=
  if c = '"' then ['\\', '"']
  else if c = '\\' then ['\\', '\\']
  else if c = '\n' then ['\\', 'n']
  else if c = '\r' then ['\\', 'r']
  else if c = '\t' then ['\\', 't']
  else if c = '\x08' then ['\\', 'b']
  else if c = '\x0c' then ['\\', 'f']
  else if ' ' ≤ c ∧ c ≤ '~' then [c]
  else
    let n := c.toNat
    if n < 0x10000 then unit n
    else unit (0xD800 + (n - 0x10000) / 0x400) ++ unit (0xDC00 + (n - 0x10000) % 0x400)

def stringChars (s : String) : List Char := '"' :: s.toList.flatMap escape ++ ['"']

/-- A new line at a level of nesting. -/
def newline (level : Nat) : List Char := '\n' :: List.replicate (2 * level) ' '

mutual

/-- The text of a value at a level of nesting. -/
def chars (level : Nat) : Json → List Char
  | null => ['n', 'u', 'l', 'l']
  | bool true => ['t', 'r', 'u', 'e']
  | bool false => ['f', 'a', 'l', 's', 'e']
  | whole n => (toString n).toList
  | number x => (layout.write x).toList
  | text s => stringChars s
  | array [] => ['[', ']']
  | array (item :: items) =>
    '[' :: newline (level + 1) ++ chars (level + 1) item ++ itemChars (level + 1) items
      ++ newline level ++ [']']
  | object [] => ['{', '}']
  | object ((key, value) :: members) =>
    '{' :: newline (level + 1) ++ stringChars key ++ ':' :: ' ' :: chars (level + 1) value
      ++ memberChars (level + 1) members ++ newline level ++ ['}']

/-- Elements after the first. -/
def itemChars (level : Nat) : List Json → List Char
  | [] => []
  | item :: items => ',' :: newline level ++ chars level item ++ itemChars level items

/-- Members after the first. -/
def memberChars (level : Nat) : List (String × Json) → List Char
  | [] => []
  | (key, value) :: members =>
    ',' :: newline level ++ stringChars key ++ ':' :: ' ' :: chars level value
      ++ memberChars level members

end

def render (value : Json) : String := String.ofList (chars 0 value)

end Json

end ScriptLexer
