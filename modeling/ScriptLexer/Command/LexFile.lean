import ScriptLexer.Command.LexOptions
import ScriptLexer.Scan

/-
  The lexing command on one file, and on a file that is watched. Lexing a text gives the dump that
  is written out and the reports that go to the second stream.
-/

namespace ScriptLexer

/-- What comes of lexing a text: what is noted on the way, the dump, and the reports. -/
structure LexedText where
  notes : List String
  dump : String
  reports : List String
deriving DecidableEq, Repr

namespace LexOptions

/-- The tokens that are shown. -/
def shownTokens (o : LexOptions) (tokens : List Token) : List Token :=
  if o.comments then tokens else tokens.filter fun t => !t.kind.isComment

/-- The log of a scan. -/
def logLines (s : Scan) : List String :=
  let stop := match s.stop with
    | some (offset, c) =>
      [s!"unrecognized character {quoted c.toString} at offset {offset}, ending scan"]
    | none => []
  let counts := s!"lexed {s.tokens.length} tokens with {s.diagnostics.length} diagnostics"
  (stop ++ [counts]).map fun line => "DEBUG jslex.lexer: " ++ line

def lexText (o : LexOptions) (verbose : Bool) (source : String) : LexedText :=
  let s := Scan.ofText source
  let tokens := o.shownTokens s.tokens
  { notes := (if verbose then logLines s else []) ++ (if o.debug then tokens.map Token.line else [])
    dump := dump (o.format.getD .text) tokens
    reports := s.diagnostics.map (·.report source o.input.toText) }

/-- Lexes the input file. -/
def lexFile (o : LexOptions) (verbose : Bool) (t : FileTree) : Except Failure LexedText :=
  match t.readText o.input with
  | .error e => .error e
  | .ok source => .ok (o.lexText verbose (String.ofList source))

/-- Writes a dump to the output file, or to the first stream. -/
def emit (o : LexOptions) (t : FileTree) (dump : String) : Except Failure (Output × FileTree) :=
  match o.output with
  | none => .ok (⟨dump, ""⟩, t)
  | some path =>
    match t.writeText path dump with
    | .error e => .error e
    | .ok after => .ok ({}, after)

/-- The note on an input file that cannot be read. -/
def unreadable (o : LexOptions) (e : Failure) : Output :=
  .note s!"error: cannot read {o.input.toText}: {e.message}"

/-- Lexes the input once. -/
def runOnce (o : LexOptions) (verbose : Bool) (t : FileTree) : Outcome :=
  match o.lexFile verbose t with
  | .error e =>
    if e.isUnreadable then ⟨.exit 2, o.unreadable e, t, []⟩ else ⟨.failed e, {}, t, []⟩
  | .ok lexed =>
    match o.emit t lexed.dump with
    | .error e => ⟨.failed e, .notes lexed.notes, t, []⟩
    | .ok (written, after) =>
      ⟨.exit (if lexed.reports.isEmpty then 0 else 1),
       .notes lexed.notes ++ written ++ .notes lexed.reports, after, []⟩

/-! ## Watching -/

/-- What one look at the input file does: nothing unless it shows another time than before. -/
structure Poll where
  seen : Int
  output : Output
  tree : FileTree
  failure : Option Failure := none

/-- Looks at the input file, which showed the time `seen` when it was last there. -/
def poll (o : LexOptions) (verbose : Bool) (seen : Int) (t : FileTree) : Poll :=
  match t.modified o.input with
  | .error (.refused _ _) => ⟨seen, {}, t, none⟩
  | .error e => ⟨seen, {}, t, some (.file e)⟩
  | .ok time =>
    if time = seen then ⟨seen, {}, t, none⟩
    else match o.lexFile verbose t with
      | .error e =>
        if e.isUnreadable then ⟨time, o.unreadable e, t, none⟩ else ⟨time, {}, t, some e⟩
      | .ok lexed =>
        match o.emit t lexed.dump with
        | .error e => ⟨time, .notes lexed.notes, t, some e⟩
        | .ok (written, after) =>
          ⟨time, .notes lexed.notes ++ written ++ .notes lexed.reports ++
            .note s!"Lexed {o.input.toText}", after, none⟩

/-- Watches the input file. After each look there is a pause, in which the files change as the
next of `pauses` says; when none is left the watch is ended from outside. `before` is what has
been written since the last pause. -/
def watchFrom (o : LexOptions) (verbose : Bool) :
    List (FileTree → FileTree) → Int → Output → FileTree → Outcome
  | pauses, seen, before, t =>
    let look := o.poll verbose seen t
    let written := before ++ look.output
    match look.failure, pauses with
    | some e, _ => ⟨.failed e, written, look.tree, []⟩
    | none, [] => ⟨.exit 0, {}, look.tree, [written]⟩
    | none, pause :: pauses =>
      let rest := o.watchFrom verbose pauses look.seen {} (pause look.tree)
      { rest with polls := written :: rest.polls }

def watchFile (o : LexOptions) (verbose : Bool) (pauses : List (FileTree → FileTree))
    (t : FileTree) : Outcome :=
  o.watchFrom verbose pauses 0 (.note s!"Watching {o.input.toText} for changes...") t

end LexOptions

namespace LexCommand

/-- How the command ends if its options cannot be resolved. -/
def refused (e : Failure) : Ending × Output :=
  match e with
  | .format _ => (.exit 2, .note s!"error: {e.message}")
  | .config .malformed => (.exit 2, .note s!"error: invalid config file: {e.message}")
  | e => (.failed e, {})

/-- The options of a command line, or how the command ends without them. -/
def options (argv : List String) (t : FileTree) : Except (Ending × Output) (LexOptions × Bool) :=
  match spec.parse argv with
  | .help => .error (.early 0, ⟨spec.helpText, ""⟩)
  | .refused fault => .error (.early 2, ⟨"", spec.usageError fault⟩)
  | .run operand settings =>
    match LexOptions.resolve t operand settings with
    | .error e => .error (.failed e, {})
    | .ok o => .ok (o, verboseOption.isSet settings)

/-- Runs the command. `pauses` is what happens while it watches. -/
def run (argv : List String) (pauses : List (FileTree → FileTree)) (t : FileTree) : Outcome :=
  match options argv t with
  | .error (.failed e, _) => ⟨(refused e).1, (refused e).2, t, []⟩
  | .error (ending, output) => ⟨ending, output, t, []⟩
  | .ok (o, verbose) =>
    if o.watch then o.watchFile verbose pauses t else o.runOnce verbose t

end LexCommand

end ScriptLexer
