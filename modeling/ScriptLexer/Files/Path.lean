import ScriptLexer.Files.Name

/-
  Paths: where they start and the names they go through. Empty and `.` components mean nothing and
  are dropped when a path is read, so two spellings of one path are equal.
-/

namespace ScriptLexer

/-- Where a path starts. Exactly two slashes are a start of their own. -/
inductive PathStart
  | here | root | doubleRoot
deriving DecidableEq, Repr

def PathStart.text : PathStart → String
  | here => ""
  | root => "/"
  | doubleRoot => "//"

structure Path where
  start : PathStart := .here
  parts : List FileName := []
deriving DecidableEq, Repr

namespace Path

/-- Splits a text at every slash. -/
def splitSlashes : List Char → List (List Char)
  | [] => [[]]
  | c :: rest =>
    if c = '/' then [] :: splitSlashes rest
    else match splitSlashes rest with
      | [] => [[c]]
      | part :: parts => (c :: part) :: parts

/-- A component that leads somewhere. -/
def isPart (part : List Char) : Bool := part != [] && part != ['.']

def ofText (text : String) : Path :=
  let cs := text.toList
  let start := match (cs.takeWhile (· == '/')).length with
    | 0 => .here
    | 2 => .doubleRoot
    | _ => .root
  ⟨start, ((splitSlashes cs).filter isPart).map fun part => FileName.ofText (String.ofList part)⟩

/-- The pieces of names with slashes in between. -/
def joined : List FileName → List NameUnit
  | [] => []
  | [name] => name.units
  | name :: names => name.units ++ .char '/' :: joined names

def units (p : Path) : List NameUnit :=
  match p.start, p.parts with
  | .here, [] => [.char '.']
  | start, parts => start.text.toList.map .char ++ joined parts

def toText (p : Path) : String := NameUnit.shown p.units

/-- A path continued by another one, which counts alone if it has a start of its own. -/
def join (p q : Path) : Path :=
  match q.start with
  | .here => ⟨p.start, p.parts ++ q.parts⟩
  | _ => q

/-- The path without its last component. -/
def parent (p : Path) : Path := ⟨p.start, p.parts.dropLast⟩

/-- Whether a component holds the character that ends names for the system. -/
def hasNul (p : Path) : Bool := p.parts.any fun part => part.units.contains (.char '\x00')

/-- The greatest length of a name, in bytes. -/
def nameLimit : Nat := 255

/-- The greatest length of a whole path, in bytes. -/
def lengthLimit : Nat := 4095

def isTooLong (p : Path) : Bool := lengthLimit < NameUnit.totalSize p.units

end Path

end ScriptLexer
