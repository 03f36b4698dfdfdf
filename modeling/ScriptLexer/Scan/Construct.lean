import ScriptLexer.Token
import ScriptLexer.Diagnostic

/-
  Constructs: what a scan reads at one go. A construct is described relative to its first
  character, so reading depends on the text ahead and not on where it stands. It may take more
  characters than its token covers: strays at the end of a word or a number are taken with it.
-/

namespace ScriptLexer

/-- Something wrong in a construct, `start` characters after its beginning. -/
structure Fault where
  kind : DiagnosticKind
  char : Char
  start : Nat
  length : Nat
deriving DecidableEq, Repr

/-- The diagnostic of a fault in a construct that stands at `offset`. -/
def Fault.diagnostic (f : Fault) (offset : Nat) : Diagnostic :=
  ⟨f.kind, f.char.toString, Span.cover (offset + f.start) f.length⟩

/-- One construct at the front of a text: the token covers the first `size` characters, and the
scan goes on after the first `taken`. -/
structure Construct where
  kind : TokenKind
  value : TokenValue := .none
  raw : Option String := none
  size : Nat
  taken : Nat
  faults : List Fault := []
  size_pos : 0 < size
  size_le_taken : size ≤ taken

namespace Construct

def token (k : Construct) (offset : Nat) : Token :=
  ⟨k.kind, Span.cover offset k.size, k.value, k.raw⟩

def diagnostics (k : Construct) (offset : Nat) : List Diagnostic :=
  k.faults.map (·.diagnostic offset)

theorem taken_pos (k : Construct) : 0 < k.taken := Nat.lt_of_lt_of_le k.size_pos k.size_le_taken

end Construct

end ScriptLexer
