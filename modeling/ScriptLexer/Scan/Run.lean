import ScriptLexer.Scan.Construct
import ScriptLexer.Text.CharClass

/-
  Runs: the stretch of characters up to the next blank. Words and numbers take a whole run, keep
  the characters that belong to them and mark the others as faults (`Mark`). What is kept ends at
  `extent`, and each mark with a fault gives a diagnostic on its own character.
-/

namespace ScriptLexer

/-- The characters up to the next blank. -/
def run (text : List Char) : List Char := text.takeWhile fun c => !isBlank c

theorem run_cons {c : Char} (h : isBlank c = false) (rest : List Char) :
    run (c :: rest) = c :: run rest := by
  simp [run, h]

/-- A character of a run, with whether it is kept and what is wrong with it. -/
structure Mark where
  char : Char
  kept : Bool
  fault : Option DiagnosticKind
deriving DecidableEq, Repr

namespace Mark

def keep (c : Char) : Mark := ⟨c, true, none⟩

def stray (kind : DiagnosticKind) (c : Char) : Mark := ⟨c, false, some kind⟩

/-- The kept characters. -/
def text (marks : List Mark) : List Char := (marks.filter (·.kept)).map (·.char)

/-- The length up to and with the last kept character. -/
def extent : List Mark → Nat
  | [] => 0
  | m :: marks =>
    let after := extent marks
    if m.kept || 0 < after then after + 1 else 0

/-- The faults of a row of marks that begins at `start`. -/
def faults : Nat → List Mark → List Fault
  | _, [] => []
  | start, m :: marks =>
    match m.fault with
    | some kind => ⟨kind, m.char, start, 1⟩ :: faults (start + 1) marks
    | none => faults (start + 1) marks

theorem extent_le_length (marks : List Mark) : extent marks ≤ marks.length := by
  induction marks with
  | nil => simp [extent]
  | cons m marks ih =>
    simp only [extent, List.length_cons]
    split <;> omega

theorem extent_pos {m : Mark} (h : m.kept = true) (marks : List Mark) :
    0 < extent (m :: marks) := by
  simp [extent, h]

end Mark

end ScriptLexer
