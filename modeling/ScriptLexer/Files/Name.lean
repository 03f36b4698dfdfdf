import ScriptLexer.Text.Quoted

/-
  Names of files. The system takes a name as bytes; what is UTF-8 in it is read as characters, and
  each byte that belongs to no character stays as it is. Such a byte is ordered and shown as the
  surrogate that stands for it, and a text with one in it cannot be written.
-/

namespace ScriptLexer

/-- A piece of a name: a character, or a byte that is part of none. -/
inductive NameUnit
  | char (c : Char)
  | byte (b : UInt8)
deriving DecidableEq, Repr

namespace NameUnit

/-- The number by which names are ordered. -/
def code : NameUnit → Nat
  | char c => c.toNat
  | byte b => 0xDC00 + b.toNat

/-- How many bytes it takes. -/
def byteSize : NameUnit → Nat
  | char c => c.utf8Size
  | byte _ => 1

/-- How many bytes a row of pieces takes. -/
def totalSize : List NameUnit → Nat
  | [] => 0
  | u :: units => u.byteSize + totalSize units

/-- The surrogate of a byte, by its number. -/
def surrogate (b : UInt8) : List Char := '\\' :: 'u' :: Quoted.hex 4 (0xDC00 + b.toNat)

def isChar : NameUnit → Bool
  | char _ => true
  | byte _ => false

/-- The characters of a row of pieces. -/
def chars (units : List NameUnit) : List Char :=
  units.filterMap fun
    | char c => some c
    | byte _ => none

/-- A row of pieces as it is shown on the second stream. -/
def shown (units : List NameUnit) : String :=
  String.ofList (units.flatMap fun
    | char c => [c]
    | byte b => surrogate b)

/-- A row of pieces in quotes. -/
def quoted (units : List NameUnit) : String :=
  let q := Quoted.quoteFor (chars units)
  String.ofList (q :: units.flatMap (fun
    | char c => Quoted.escape isPrintable q c
    | byte b => surrogate b) ++ [q])

end NameUnit

/-- Bytes in the middle of a text that are part of no character: they cannot be written. -/
structure Unwritable where
  position : Nat
  bytes : List UInt8
deriving DecidableEq, Repr

def Unwritable.message (e : Unwritable) : String :=
  let place :=
    match e.bytes with
    | [b] => s!"character '{String.ofList (NameUnit.surrogate b)}' in position {e.position}"
    | bytes => s!"characters in position {e.position}-{e.position + bytes.length - 1}"
  s!"'utf-8' codec can't encode {place}: surrogates not allowed"

namespace NameUnit

/-- The bytes in front. -/
def leadingBytes : List NameUnit → List UInt8
  | byte b :: units => b :: leadingBytes units
  | _ => []

/-- The text of a row of pieces of which the first stands at `position`. -/
def textFrom (position : Nat) : List NameUnit → Except Unwritable (List Char)
  | [] => .ok []
  | char c :: units => do
    let cs ← textFrom (position + 1) units
    return c :: cs
  | byte b :: units => .error ⟨position, b :: leadingBytes units⟩

end NameUnit

/-- The name of a file or folder. -/
structure FileName where
  units : List NameUnit
deriving DecidableEq, Repr

namespace FileName

/-- The name that a text is. -/
def ofText (text : String) : FileName := ⟨text.toList.map .char⟩

instance : Coe String FileName := ⟨ofText⟩

/-- Whether a name is a text. -/
def isText (name : FileName) : Bool := name.units.all NameUnit.isChar

def byteSize (name : FileName) : Nat := NameUnit.totalSize name.units

/-- Names are ordered piece by piece. -/
def codes (name : FileName) : List Nat := name.units.map NameUnit.code

instance : LT FileName := ⟨fun a b => a.codes < b.codes⟩

instance (a b : FileName) : Decidable (a < b) := inferInstanceAs (Decidable (a.codes < b.codes))

/-- What a name ends in, from its last dot on. A dot at either end of the name begins none. -/
def suffix (name : FileName) : FileName :=
  let tail := (name.units.reverse.takeWhile (· != .char '.')).reverse
  if tail.length + 1 < name.units.length ∧ tail ≠ [] then ⟨.char '.' :: tail⟩ else ⟨[]⟩

end FileName

end ScriptLexer
