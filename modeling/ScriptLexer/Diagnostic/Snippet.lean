import ScriptLexer.Diagnostic
import ScriptLexer.Text.Lines

/-
  Snippets: a message with the source line it is about, and carets under the place. A report is
  the snippet of a diagnostic; the reports of several are separated by an empty line.
-/

namespace ScriptLexer

/-- A snippet, laid out: the line shown, its number, and the columns of the carets. -/
structure Snippet where
  message : String
  filename : String
  label : String
  line : Nat
  column : Nat
  shown : List Char
  carets : Nat
deriving DecidableEq, Repr

namespace Snippet

/-- The carets run to the end of the span, or of the line if the span goes beyond it; there is
at least one. -/
def ofSpan (message : String) (span : Span) (source : List Char)
    (filename : String := "input.js") (label : String := "") : Snippet :=
  let start := positionAt source span.start
  let stop := positionAt source span.stop
  let shown := (splitLines source).getD (start.line - 1) []
  let carets :=
    if stop.line = start.line then stop.column - start.column
    else shown.length + 1 - start.column
  ⟨message, filename, label, start.line, start.column, shown, max 1 carets⟩

def spaces (n : Nat) : String := String.ofList (List.replicate n ' ')

/-- The five lines of a snippet. -/
def lines (s : Snippet) : List String :=
  let number := Nat.repr s.line
  let gutter := spaces (number.length + 1)
  let carets := spaces (s.column - 1) ++ String.ofList (List.replicate s.carets '^')
  [ "error: " ++ s.message,
    gutter ++ "--> " ++ s.filename ++ ":" ++ number ++ ":" ++ Nat.repr s.column,
    gutter ++ "|",
    number ++ " | " ++ String.ofList s.shown,
    gutter ++ "| " ++ carets ++ (if s.label.isEmpty then "" else " " ++ s.label) ]

def render (s : Snippet) : String := "\n".intercalate s.lines

end Snippet

namespace Diagnostic

/-- The snippet of a diagnostic, labelled with its kind. -/
def report (d : Diagnostic) (source : String) (filename : String := "input.js") : String :=
  (Snippet.ofSpan d.message d.span source.toList filename d.kind.text).render

end Diagnostic

/-- Why strict reading refuses a source text. -/
structure LexError where
  diagnostics : List Diagnostic
  source : String
deriving DecidableEq, Repr

namespace LexError

/-- The message of the first diagnostic. -/
def message (e : LexError) : String :=
  match e.diagnostics with
  | [] => "lexing failed"
  | d :: _ => d.message

/-- All reports, separated by empty lines. -/
def render (e : LexError) (filename : String := "input.js") : String :=
  "\n\n".intercalate (e.diagnostics.map fun d => d.report e.source filename)

end LexError

end ScriptLexer
