import ScriptLexer.Suite.Summary
import ScriptLexer.Command.Outcome
import ScriptLexer.Scan

/-
  Suite runs: every file below a folder with one of the given endings is a case, and a case passes
  if it lexes without diagnostics.
-/

namespace ScriptLexer

/-- How a case comes out; it crashes if its file is not a readable text. -/
inductive CaseResult
  | passed | failed | crashed
deriving DecidableEq, Repr

namespace CaseResult

def label : CaseResult → String
  | passed => "PASS"
  | failed => "FAIL"
  | crashed => "CRASH"

end CaseResult

namespace Suite

/-- A text without one byte-order mark in front. -/
def dropMark : List Char → List Char
  | '\ufeff' :: rest => rest
  | text => text

/-- The result of the case in a file. -/
def runCase (t : FileTree) (p : Path) : CaseResult :=
  match t.readText p with
  | .error _ => .crashed
  | .ok text =>
    if (Scan.startingAt 0 (dropMark text)).diagnostics.isEmpty then .passed else .failed

/-- The path of what lies below the root. -/
def casePath (root : Path) (names : Location) : Path := ⟨root.start, root.parts ++ names⟩

/-- Those of some entries that are files. Each is looked at. -/
def filesAmong (t : FileTree) (root : Path) : List Location → Except FileError (List Location)
  | [] => .ok []
  | names :: more => do
    let isFile ← t.isFile (casePath root names)
    let files ← filesAmong t root more
    return if isFile then names :: files else files

/-- The files below a folder, by the names that lead to them from the root, which is at `l`. There
is `room` for folders inside each other. All entries of a folder are looked at before a folder among
them is listed; a folder that may not be listed has none. -/
def filesBelow (t : FileTree) (root : Path) (l : Location) :
    Nat → Location → Except FileError (List Location)
  | room, names => do
    let inside := t.listed (l ++ names)
    let files ← filesAmong t root (inside.map fun entry => names ++ [entry.1])
    match room with
    | 0 => throw .listingTooDeep
    | room + 1 =>
      let folders := inside.filter fun entry => entry.2.isFolder
      let deeper ← folders.mapM fun entry => filesBelow t root l room (names ++ [entry.1])
      return files ++ deeper.flatten

/-- Whether a file has one of the endings. -/
def hasEnding (endings : List String) (names : Location) : Bool :=
  match names.getLast? with
  | some name => name.suffix ∈ endings.map FileName.ofText
  | none => false

/-- The cases below a folder, as the names that lead to them from there, in order. -/
def discover (t : FileTree) (root : Path) (endings : List String) :
    Except FileError (List Location) := do
  if ← t.isFolder root then
    let l ← t.locate root
    let files ← filesBelow t root l t.room.listing []
    return (files.filter (hasEnding endings)).mergeSort FileTree.locationLe
  else return []

/-- The cases with their results. -/
def runCases (t : FileTree) (root : Path) (endings : List String) :
    Except FileError (List (Location × CaseResult)) := do
  let cases ← discover t root endings
  return cases.map fun names => (names, runCase t (casePath root names))

/-- How many cases came out in a given way. -/
def count (results : List (Location × CaseResult)) (r : CaseResult) : Nat :=
  results.countP fun (_, s) => s = r

def summarize (name : String) (results : List (Location × CaseResult)) : Summary :=
  { name := name
    total := results.length
    success := count results .passed
    failure := count results .failed
    crash := count results .crashed }

/-- The cases that passed. -/
def passing (results : List (Location × CaseResult)) : List Location :=
  results.filterMap fun (names, r) => if r = .passed then some names else none

/-- The log of a run. -/
def logLines (root : Path) (results : List (Location × CaseResult)) : List String :=
  results.map fun (names, r) => s!"INFO {r.label}: {(casePath root names).toText}"

end Suite

end ScriptLexer
