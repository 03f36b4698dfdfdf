import ScriptLexer.Scan

/-
  Diagnostics for an editor. After every event the diagnostics of the document it is about are
  published. The documents themselves are kept by a workspace, which is not part of the server
  (`Workspace`): it takes in each event before the server looks.
-/

namespace ScriptLexer

namespace Editor

inductive Severity
  | error | warning
deriving DecidableEq, Repr

/-- A place in a document: line and character count from zero. -/
structure Place where
  line : Nat
  character : Nat
deriving DecidableEq, Repr

def placeAt (source : List Char) (offset : Int) : Place :=
  let p := positionAt source offset
  ⟨p.line - 1, p.column - 1⟩

/-- A diagnostic as an editor shows it. -/
structure Note where
  start : Place
  stop : Place
  message : String
  severity : Severity
  source : String
deriving DecidableEq, Repr

/-- The source that a note names. -/
def toolName : String := "jslex"

def Note.ofDiagnostic (text : List Char) (d : Diagnostic) : Note :=
  { start := placeAt text d.span.start
    stop := placeAt text d.span.stop
    message := d.message
    severity := if d.isLegacy then .warning else .error
    source := toolName }

/-- The notes on a text. -/
def notes (text : String) : List Note :=
  (Scan.ofText text).diagnostics.map (Note.ofDiagnostic text.toList)

inductive Event
  | opened (uri text : String)
  | changed (uri : String) (texts : List String)
deriving DecidableEq, Repr

namespace Event

def uri : Event → String
  | opened uri _ => uri
  | changed uri _ => uri

end Event

/-- The notes on one document. -/
structure Publication where
  uri : String
  notes : List Note
deriving DecidableEq, Repr

/-- A workspace: its states, what an event makes of one, and the text of a document in it. -/
structure Workspace (σ : Type) where
  update : σ → Event → σ
  text : σ → String → String

namespace Workspace

/-- The publications after an event: one, for its own document. -/
def publish {σ : Type} (w : Workspace σ) (s : σ) (e : Event) : List Publication :=
  [⟨e.uri, Editor.notes (w.text (w.update s e) e.uri)⟩]

/-- The publications of events in a row. -/
def run {σ : Type} (w : Workspace σ) : σ → List Event → List (List Publication)
  | _, [] => []
  | s, e :: events => w.publish s e :: w.run (w.update s e) events

/-- The workspace that notes down every text. Each text of a change replaces the one before. -/
def noting : Workspace (List (String × String)) where
  update texts
    | .opened uri text => (uri, text) :: texts
    | .changed uri changed => (uri, changed.getLastD ((texts.lookup uri).getD "")) :: texts
  text texts uri := (texts.lookup uri).getD ""

end Workspace

end Editor

end ScriptLexer
