import ScriptLexer.Files.Tree
import ScriptLexer.Json.Reader
import ScriptLexer.Text.Lines
import ScriptLexer.Toml.Reader

/-
  Outcomes of commands: what they write, how they end, and the files they leave behind.
-/

namespace ScriptLexer

/-- What can end a command without an exit code, or be reported by it. A refused `record` is the
summary of an earlier run. -/
inductive Failure
  | file (error : FileError)
  | encoding (error : Utf8.Error)
  | config (fault : TomlFault)
  | format (shown : String)
  | display (fault : DisplayFault)
  | record (fault : JsonFault)
  | wholeTooLarge
  | quotientTooLarge
  | unencodable (fault : Unwritable)

namespace Failure

/-- The message on a whole number with more digits than the limit; their count may be given. -/
def tooManyDigits (count : String) : String :=
  s!"Exceeds the limit ({wholeDigitLimit} digits) for integer string conversion" ++ count ++
    "; use sys.set_int_max_str_digits() to increase the limit"

def counted (count : Nat) : String := s!": value has {count} digits"

def message : Failure → String
  | file error => error.message
  | encoding error => error.message
  | config .malformed | record .malformed => "malformed document"
  | config (.tooManyDigits count) | record (.tooManyDigits count) => tooManyDigits (counted count)
  | config .tooDeep => tooDeepMessage ""
  | format shown => "invalid output format in config (expected text or json): " ++ shown
  | display .tooManyDigits => tooManyDigits ""
  | display .tooDeep => tooDeepMessage " while getting the repr of an object"
  | record .arrayTooDeep => tooDeepMessage " while decoding a JSON array from a unicode string"
  | record .objectTooDeep => tooDeepMessage " while decoding a JSON object from a unicode string"
  | wholeTooLarge => "int too large to convert to float"
  | quotientTooLarge => "integer division result too large for a float"
  | unencodable fault => fault.message

/-- The failures that mean a file cannot be read as a text: the system refuses it, or its bytes
are no text. -/
def isUnreadable : Failure → Bool
  | file (.refused _ _) => true
  | encoding _ => true
  | _ => false

end Failure

/-- What a command writes to its two streams. -/
structure Output where
  out : String := ""
  err : String := ""
deriving DecidableEq, Repr

namespace Output

def append (a b : Output) : Output := ⟨a.out ++ b.out, a.err ++ b.err⟩

instance : Append Output := ⟨append⟩

/-- A line on the second stream. -/
def note (line : String) : Output := ⟨"", line ++ "\n"⟩

def notes (lines : List String) : Output :=
  ⟨"", String.join (lines.map fun line => line ++ "\n")⟩

end Output

/-- How a command ends: with its exit code, already while reading its command line, or by a
failure that it does not handle. -/
inductive Ending
  | exit (code : Nat)
  | early (code : Nat)
  | failed (failure : Failure)

/-- All that a command does. `polls` holds what a watching command wrote before each of its
pauses, `output` what it wrote after them. -/
structure Outcome where
  ending : Ending
  output : Output
  tree : FileTree
  polls : List Output := []

namespace FileTree

/-- The text of a file, with every line break as a line feed. -/
def readText (t : FileTree) (p : Path) : Except Failure (List Char) :=
  match t.read p with
  | .error e => .error (.file e)
  | .ok bytes =>
    match Utf8.decode bytes with
    | .error e => .error (.encoding e)
    | .ok text => .ok (normalizeBreaks text)

/-- Writes a text as it is. -/
def writeText (t : FileTree) (p : Path) (text : String) : Except Failure FileTree :=
  match t.write p (Utf8.encode text) with
  | .error e => .error (.file e)
  | .ok after => .ok after

end FileTree

end ScriptLexer
