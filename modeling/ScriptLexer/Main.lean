import ScriptLexer.Command.LexFile
import ScriptLexer.Command.RunSuite
import ScriptLexer.Files.Survey

/-
  The program. It looks at the files that a command needs, runs the command on what it saw, prints
  what the command writes, and makes its changes. The first argument names the command. Links count
  as what they lead to; whether a file may be written shows only when it is.
-/

namespace ScriptLexer

/-- The text by which the file system knows a location. -/
def placeText (l : Location) : String := "/" ++ NameUnit.shown (Path.joined l)

/-- Adds what is at a location. What may not be read, listed or gone through is marked as such. -/
def survey (t : FileTree) (l : Location) : IO FileTree := do
  let place := (← IO.currentDir) / placeText l
  match ← place.metadata.toBaseIO with
  | .error (.permissionDenied ..) =>
    return t.limit l.dropLast { t.access l.dropLast with search := false }
  | .error _ => return t
  | .ok data =>
    let time := data.modified.sec * Int.pow 10 9 + data.modified.nsec.toNat
    if ← place.isDir then
      let t := t.set l (.folder time)
      match ← place.readDir.toBaseIO with
      | .ok _ => return t
      | .error _ => return t.limit l { t.access l with read := false }
    else
      match ← (IO.FS.readBinFile place).toBaseIO with
      | .ok bytes => return t.set l (.file bytes.toList time)
      | .error _ => return (t.set l (.file [] time)).limit l { t.access l with read := false }

/-- Adds what a path leads along. -/
def surveyPath (t : FileTree) (p : Path) : IO FileTree :=
  (p.stations t.home).foldlM survey t

/-- Adds all that lies below a location. -/
partial def surveyBelow (t : FileTree) (l : Location) : IO FileTree := do
  let place := (← IO.currentDir) / placeText l
  if !(← place.isDir) || !(t.access l).read then return t
  (← place.readDir).foldlM (fun t entry => do
    let inner := l ++ [FileName.ofText entry.fileName]
    surveyBelow (← survey t inner) inner) t

/-- A tree with nothing but the way to the working folder. -/
def surveyHome : IO FileTree := do
  let home := (Path.ofText (← IO.currentDir).toString).parts
  return { FileTree.empty home with clock := Int.pow 10 19 }

def makeEntry (l : Location) (e : Entry) : IO Unit := do
  let place := (← IO.currentDir) / placeText l
  match e with
  | .folder _ => IO.FS.createDirAll place
  | .file content _ => IO.FS.writeBinFile place content.toByteArray

/-- Prints and stores what a command has done. -/
def carryOut (before : FileTree) (output : Output) (after : FileTree) : IO Unit := do
  IO.print output.out
  IO.eprint output.err
  for (l, e) in before.additions after do makeEntry l e

def finish (before : FileTree) (o : Outcome) : IO UInt32 := do
  carryOut before o.output o.tree
  match o.ending with
  | .exit code => return code.toUInt32
  | .early code => return code.toUInt32
  | .failed e =>
    IO.eprintln e.message
    return 1

/-- The files that a lexing command may read or write. -/
def surveyForLexing (argv : List String) : IO FileTree := do
  let t ← surveyHome
  match LexCommand.spec.parse argv with
  | .run operand settings =>
    let input := Path.ofText operand
    let config := ((LexCommand.configOption.value? settings).map Path.ofText).getD
      (input.parent.join (Path.ofText configName))
    let output := (LexCommand.outputOption.value? settings).map Path.ofText
    ([input, config] ++ output.toList).foldlM surveyPath t
  | _ => return t

/-- Looks at the watched file twice a second. -/
partial def watchForever (o : LexOptions) (verbose : Bool) (argv : List String) (seen : Int) :
    IO UInt32 := do
  let t ← surveyForLexing argv
  let look := o.poll verbose seen t
  carryOut t look.output look.tree
  match look.failure with
  | some e =>
    IO.eprintln e.message
    return 1
  | none =>
    IO.sleep 500
    watchForever o verbose argv look.seen

def runLexing (argv : List String) : IO UInt32 := do
  let t ← surveyForLexing argv
  match LexCommand.options argv t with
  | .ok (o, verbose) =>
    if o.watch then
      IO.eprintln s!"Watching {o.input.toText} for changes..."
      watchForever o verbose argv 0
    else finish t (o.runOnce verbose t)
  | .error _ => finish t (LexCommand.run argv [] t)

def runSuite (argv : List String) : IO UInt32 := do
  let t ← surveyHome
  match SuiteCommand.spec.parse argv with
  | .run operand settings =>
    let root := Path.ofText operand
    let given := (SuiteCommand.configOption.value? settings).map Path.ofText
    let t ← surveyPath t root
    let t ← match t.locate root with
      | .ok l => surveyBelow t l
      | .error _ => pure t
    let t ← surveyPath t (given.getD (root.join (Path.ofText configName)))
    match t.config given root with
    | .ok config =>
      match SuiteOptions.resolve t.room.shown config root settings with
      | .ok o =>
        let t ← surveyPath t (Suite.summaryPath o.summaryFolder o.name)
        let t ← surveyPath t (Suite.successPath o.summaryFolder o.name)
        finish t (SuiteCommand.run argv t)
      | .error _ => finish t (SuiteCommand.run argv t)
    | .error _ => finish t (SuiteCommand.run argv t)
  | _ => finish t (SuiteCommand.run argv t)

end ScriptLexer

open ScriptLexer in
def main (args : List String) : IO UInt32 := do
  match args with
  | "jslex" :: argv => runLexing argv
  | "jslex-suite" :: argv => runSuite argv
  | _ =>
    IO.eprint (LexCommand.usage ++ SuiteCommand.usage)
    return 2
