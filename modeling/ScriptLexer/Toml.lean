import ScriptLexer.Toml.Moment
import ScriptLexer.Number.Decimal
import ScriptLexer.Number.Layout
import ScriptLexer.Text.Quoted

/-
  TOML values, and how a value is shown: a text by itself stands as it is, inside an array or
  table it is quoted. Whole numbers that are too long and values nested too deep are not shown
  (`DisplayFault`).
-/

namespace ScriptLexer

inductive Toml
  | text (value : String)
  | whole (value : Int)
  | number (value : Binary64)
  | bool (value : Bool)
  | moment (value : Moment)
  | array (items : List Toml)
  | table (members : List (String × Toml))
deriving Repr

/-- Why a value cannot be shown. -/
inductive DisplayFault
  | tooManyDigits
  | tooDeep
deriving DecidableEq, Repr

namespace Toml

/-- A whole number in decimal, which has the same greatest length as one that is read. -/
def wholeText (n : Int) : Except DisplayFault String :=
  if Nat.pow 10 wholeDigitLimit ≤ n.natAbs then .error .tooManyDigits else .ok (toString n)

mutual

/-- A value inside another one. `room` is the number of levels that are left. -/
def nested : (room : Nat) → Toml → Except DisplayFault String
  | 0, _ => .error .tooDeep
  | _ + 1, text s => .ok (quoted s)
  | _ + 1, whole n => wholeText n
  | _ + 1, number x => .ok (NumberLayout.standard.write x)
  | _ + 1, bool true => .ok "True"
  | _ + 1, bool false => .ok "False"
  | _ + 1, moment m => .ok m.named
  | room + 1, array items => do
    return "[" ++ ", ".intercalate (← nestedItems room items) ++ "]"
  | room + 1, table members => do
    return "\x7b" ++ ", ".intercalate (← nestedMembers room members) ++ "\x7d"

def nestedItems : Nat → List Toml → Except DisplayFault (List String)
  | _, [] => .ok []
  | room, item :: items => do
    let first ← nested room item
    return first :: (← nestedItems room items)

def nestedMembers : Nat → List (String × Toml) → Except DisplayFault (List String)
  | _, [] => .ok []
  | room, (key, value) :: members => do
    let first ← nested room value
    return (quoted key ++ ": " ++ first) :: (← nestedMembers room members)

end

/-- A value by itself, with `room` for the levels of values in it. -/
def shown (room : Nat) : Toml → Except DisplayFault String
  | text s => .ok s
  | moment m => .ok m.plain
  | other => other.nested room

/-- The text that a value is, if it is one. -/
def text? : Toml → Option String
  | text s => some s
  | _ => none

/-- The value of a key in a table. -/
def member? : Toml → String → Option Toml
  | table members, key => members.lookup key
  | _, _ => none

end Toml

end ScriptLexer
