import ScriptLexer.Scan

/-
  A lexer that can be used once: it holds its source text until it is run.
-/

namespace ScriptLexer

structure Lexer where
  source : String
  spent : Bool := false
deriving DecidableEq, Repr

namespace Lexer

/-- A second run is refused. -/
structure Spent where
deriving DecidableEq, Repr

def Spent.message (_ : Spent) : String := "Lexer has already been run; create a new Lexer"

/-- Runs the lexer and uses it up. -/
def run (lexer : Lexer) : Except Spent Scan × Lexer :=
  if lexer.spent then (.error ⟨⟩, lexer)
  else (.ok (Scan.ofText lexer.source), { lexer with spent := true })

/-- The results of a number of runs in a row. -/
def runs : Nat → Lexer → List (Except Spent Scan)
  | 0, _ => []
  | n + 1, lexer => lexer.run.1 :: runs n lexer.run.2

end Lexer

end ScriptLexer
