import ScriptLexer.Proofs.Scan.Run

/-
  A cursor that moves over a source text. It remembers where the last character of the current
  token ended (`lastPos`), which strays do not move, and makes spans from these two offsets. A span
  may come out backwards and an offset may lie outside the text (`Mishap`); what a cursor does is
  therefore `Except`. Passing a row of marks one by one (`pass`) is described as a whole by
  `pass_eq`.
-/

namespace ScriptLexer

/-- What can go wrong with a cursor. -/
inductive Mishap
  | inverted (bounds : Span.Inverted)
  | outside (offset : Int)
deriving DecidableEq, Repr

/-- What has gone well goes on. -/
theorem ok_bind {α β : Type} (a : α) (f : α → Except Mishap β) : (Except.ok a >>= f) = f a := rfl

structure Cursor where
  source : List Char
  pos : Nat := 0
  lastPos : Nat := 0
  diagnostics : List Diagnostic := []
deriving DecidableEq, Repr

namespace Cursor

/-! ## Looking and moving -/

/-- The text from the cursor on. -/
def ahead (c : Cursor) : List Char := c.source.drop c.pos

/-- The character `distance` places from the cursor, unless the text ends before. -/
def peek (c : Cursor) (distance : Nat) : Option Char := c.source[c.pos + distance]?

/-- Over one character. -/
def move (c : Cursor) : Cursor := { c with pos := c.pos + 1 }

/-- The current token goes up to the cursor. -/
def commit (c : Cursor) : Cursor := { c with lastPos := c.pos }

/-- A blank or the end of the text stands at the cursor. -/
def atBoundary (c : Cursor) : Bool := (c.peek 0).all isBlank

/-- The number of characters ahead. -/
def room (c : Cursor) : Nat := c.source.length - c.pos

/-! ## Spans and diagnostics -/

def spanOf (start stop : Int) : Except Mishap Span :=
  match Span.ofBounds start stop with
  | .ok span => .ok span
  | .error bounds => .error (.inverted bounds)

/-- The character at an offset. -/
def charAt (c : Cursor) (offset : Int) : Except Mishap Char :=
  match c.source[offset.toNat]? with
  | some char => if 0 ≤ offset then .ok char else .error (.outside offset)
  | none => .error (.outside offset)

/-- Reports a character over the range between two offsets. -/
def report (kind : DiagnosticKind) (char : Char) (start stop : Int) (c : Cursor) :
    Except Mishap Cursor :=
  match spanOf start stop with
  | .ok span => .ok { c with diagnostics := c.diagnostics ++ [⟨kind, char.toString, span⟩] }
  | .error mishap => .error mishap

/-- Reports the character that the cursor has just gone over. -/
def stray (kind : DiagnosticKind) (char : Char) (c : Cursor) : Except Mishap Cursor :=
  c.report kind char (c.pos - 1) c.pos

/-! ## What stands ahead -/

theorem getElem?_ahead (c : Cursor) (distance : Nat) : c.ahead[distance]? = c.peek distance := by
  rw [ahead, List.getElem?_drop]
  rfl

theorem peek_zero (c : Cursor) : c.peek 0 = c.ahead.head? := by
  rw [← getElem?_ahead, List.head?_eq_getElem?]

theorem ahead_move {c : Cursor} {char : Char} {rest : List Char} (h : c.ahead = char :: rest) :
    c.move.ahead = rest := by
  show c.source.drop (c.pos + 1) = rest
  rw [← List.drop_drop, ← ahead, h]
  rfl

@[simp] theorem ahead_commit (c : Cursor) : c.commit.ahead = c.ahead := rfl

theorem atBoundary_iff {c : Cursor} : c.atBoundary = true ↔ AtBoundary c.ahead := by
  rw [atBoundary, peek_zero, AtBoundary]
  cases c.ahead.head? <;> simp

theorem room_lt {c c' : Cursor} {char : Char} (there : c.peek 0 = some char)
    (source : c'.source = c.source) (pos : c.pos < c'.pos) : c'.room < c.room := by
  obtain ⟨below, -⟩ := List.getElem?_eq_some_iff.mp there
  unfold room
  rw [source]
  omega

/-! ## Reports that succeed -/

theorem report_eq {kind : DiagnosticKind} {char : Char} {start stop : Int} (c : Cursor)
    (ordered : start ≤ stop) : c.report kind char start stop =
      .ok { c with diagnostics := c.diagnostics ++ [⟨kind, char.toString, ⟨start, stop, ordered⟩⟩] } := by
  rw [report, spanOf, Span.ofBounds, dif_pos ordered]

theorem report_source_pos {kind : DiagnosticKind} {char : Char} {start stop : Int} {c c' : Cursor}
    (h : c.report kind char start stop = .ok c') : c'.source = c.source ∧ c'.pos = c.pos := by
  unfold report at h
  split at h
  · cases h
    exact ⟨rfl, rfl⟩
  · contradiction

/-! ## Rows of marks -/

/-- Over one character, which is kept or not and reported or not. -/
def passMark (c : Cursor) (m : Mark) : Cursor where
  source := c.source
  pos := c.pos + 1
  lastPos := if m.kept then c.pos + 1 else c.lastPos
  diagnostics := c.diagnostics ++
    (m.fault.map fun kind => ⟨kind, m.char.toString, Span.cover c.pos 1⟩).toList

/-- Over a row of characters. -/
def pass (c : Cursor) (marks : List Mark) : Cursor := marks.foldl passMark c

theorem passMark_keep (c : Cursor) (char : Char) : c.passMark (.keep char) = c.move.commit := by
  simp [passMark, Mark.keep, move, commit]

/-- A character that is kept and then reported if nothing follows it. -/
theorem stray_commit_move (c : Cursor) (kind : DiagnosticKind) (char : Char) :
    c.move.commit.stray kind char = .ok (c.passMark ⟨char, true, some kind⟩) := by
  have ordered : ((c.pos + 1 : Nat) : Int) - 1 ≤ (c.pos + 1 : Nat) := by omega
  rw [stray]
  refine (report_eq _ ordered).trans ?_
  simp [passMark, move, commit, Span.cover]

theorem stray_move (c : Cursor) (kind : DiagnosticKind) (char : Char) :
    c.move.stray kind char = .ok (c.passMark (.stray kind char)) := by
  have ordered : ((c.pos + 1 : Nat) : Int) - 1 ≤ (c.pos + 1 : Nat) := by omega
  rw [stray]
  refine (report_eq _ ordered).trans ?_
  simp [passMark, Mark.stray, move, Span.cover]

/-- Going over a row moves the cursor to its end, and the end of the token to that of its last
kept character; each mark with a fault is reported where it stands. -/
theorem pass_eq (c : Cursor) (marks : List Mark) (offset : Nat) (at_offset : offset ≤ c.pos) :
    c.pass marks =
      { source := c.source
        pos := c.pos + marks.length
        lastPos := if Mark.extent marks = 0 then c.lastPos else c.pos + Mark.extent marks
        diagnostics := c.diagnostics ++
          (Mark.faults (c.pos - offset) marks).map (·.diagnostic offset) } := by
  induction marks generalizing c with
  | nil => simp [pass, Mark.extent, Mark.faults]
  | cons m marks ih =>
    have step : c.pass (m :: marks) = (c.passMark m).pass marks := rfl
    have later : c.pos + 1 - offset = c.pos - offset + 1 := by omega
    rw [step, ih (c.passMark m) (Nat.le_succ_of_le at_offset), Mark.faults_cons, passMark, later]
    simp only [Cursor.mk.injEq, true_and]
    refine ⟨?_, ?_, ?_⟩
    · rw [List.length_cons]
      omega
    · rw [Mark.extent]
      by_cases none : Mark.extent marks = 0
      · cases m.kept <;> simp [none]
      · rw [if_neg none]
        simp only [Nat.pos_of_ne_zero none, decide_true, Bool.or_true, if_true,
          Nat.succ_ne_zero, if_false]
        omega
    · rw [List.append_assoc, List.map_append]
      congr 2
      cases m.fault with
      | none => rfl
      | some kind => simp [Fault.diagnostic, Nat.add_sub_cancel' at_offset]

end Cursor

end ScriptLexer
