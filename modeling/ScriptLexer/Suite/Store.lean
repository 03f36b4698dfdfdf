import ScriptLexer.Suite.Run
import ScriptLexer.Json.Reader

/-
  Stored summaries: the summary of a suite and the list of its passing cases, in two files that
  bear its name. The coverage of the run before is read back from the first.
-/

namespace ScriptLexer

namespace Suite

def summaryPath (folder : Path) (name : String) : Path :=
  folder.join (Path.ofText (name ++ ".json"))

def successPath (folder : Path) (name : String) : Path :=
  folder.join (Path.ofText (name ++ ".success.txt"))

/-- A number as coverage: truth values count as one and zero, and other values as nothing. -/
def coverageOf : Json → Except Failure Binary64
  | .number x => .ok x
  | .bool b => .ok (if b then .ofRatio false 1 1 else .zero)
  | .whole n =>
    match Binary64.ofInt? n with
    | some x => .ok x
    | none => .error .wholeTooLarge
  | _ => .ok .zero

/-- The coverage that is recorded in a text; none is zero. -/
def recordedCoverage (room : Nat) (text : List Char) : Except Failure Binary64 :=
  match Json.read room text with
  | .error .malformed => .ok .zero
  | .error fault => .error (.record fault)
  | .ok value =>
    match value.member? "coverage" with
    | some coverage => coverageOf coverage
    | none => .ok .zero

/-- The coverage of the run before. -/
def previousCoverage (t : FileTree) (folder : Path) (name : String) : Except Failure Binary64 :=
  match t.readText (summaryPath folder name) with
  | .ok text => recordedCoverage t.room.record text
  | .error (.file (.refused _ _)) => .ok .zero
  | .error e => .error e

/-- The list of passing cases, a line for each. -/
def successUnits (passed : List Location) : List NameUnit :=
  passed.flatMap fun names => Path.joined names ++ [.char '\n']

/-- Writes a row of pieces of names. If they are no text, the file is left empty. -/
def writeUnits (t : FileTree) (p : Path) (units : List NameUnit) : Except Failure Unit × FileTree :=
  match NameUnit.textFrom 0 units with
  | .ok text =>
    match t.writeText p (String.ofList text) with
    | .error e => (.error e, t)
    | .ok after => (.ok (), after)
  | .error fault =>
    match t.writeText p "" with
    | .error e => (.error e, t)
    | .ok after => (.error (.unencodable fault), after)

/-- Stores a summary; what has been made before a failure stays. -/
def store (t : FileTree) (folder : Path) (summary : Summary) (coverage : Binary64)
    (passed : List Location) : Except Failure Unit × FileTree :=
  match t.makeFolders folder with
  | (.error e, t) => (.error (.file e), t)
  | (.ok (), t) =>
    match t.writeText (summaryPath folder summary.name)
        ((summary.toJson coverage).render ++ "\n") with
    | .error e => (.error e, t)
    | .ok t => writeUnits t (successPath folder summary.name) (successUnits passed)

end Suite

end ScriptLexer
