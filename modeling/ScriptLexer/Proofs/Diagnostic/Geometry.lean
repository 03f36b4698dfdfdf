import Mathlib.Order.Interval.Set.Defs
import ScriptLexer.Diagnostic.Snippet
import ScriptLexer.Proofs.Number.Digits
import ScriptLexer.Proofs.Text.Positions

/-
  The geometry of snippets. Where the carets begin and end follows from the places of the two
  offsets of the span (`Snippet.ofSpan_frames`); that they stand below those columns of the line
  shown, from the three rows having their bar at the same place (`Snippet.exists_rows`). Both
  hold for every span, also one that begins or ends outside the source or inside a line break
  (`Snippet.ofSpan_geometry`).
-/

namespace ScriptLexer

namespace Position

variable {start stop : Position}

theorem column_le_of_place_le (le : start.place ≤ stop.place) (same : start.line = stop.line) :
    start.column ≤ stop.column := by
  rcases (Prod.Lex.toLex_le_toLex).mp le with less | ⟨-, le⟩
  · exact absurd same (Nat.ne_of_lt less)
  · exact le

end Position

namespace Snippet

/-! ## Columns -/

/-- The columns under which there is a caret. -/
def caretColumns (s : Snippet) : Set Nat := Set.Ico s.column (s.column + s.carets)

/-- The snippet shows the line of the first place, with carets from there to the second place, or
to the end of the line if that lies on another one. -/
structure Frames (s : Snippet) (source : List Char) (start stop : Position) : Prop where
  line : s.line = start.line
  column : s.column = start.column
  shown : (splitLines source)[s.line - 1]? = some s.shown
  line_pos : 1 ≤ s.line
  column_pos : 1 ≤ s.column
  inLine : s.column - 1 ≤ s.shown.length
  marked : 1 ≤ s.carets
  sameLine : start.line = stop.line → start.column ≠ stop.column →
    s.caretColumns = Set.Ico start.column stop.column
  samePlace : start.line = stop.line → start.column = stop.column → s.carets = 1
  acrossLines : start.line ≠ stop.line → s.column ≤ s.shown.length →
    s.caretColumns = Set.Icc s.column s.shown.length
  behindLine : start.line ≠ stop.line → s.shown.length < s.column → s.carets = 1
  within : ∀ c ∈ s.caretColumns, c ≤ max s.shown.length s.column

/-- The columns of a number of carets that is known to be the distance to another column. -/
theorem caretColumns_eq {s : Snippet} {stop : Nat} (reach : s.column + s.carets = stop) :
    s.caretColumns = Set.Ico s.column stop := by
  rw [caretColumns, reach]

theorem ofSpan_frames (message : String) (span : Span) (source : List Char)
    (filename label : String) :
    (ofSpan message span source filename label).Frames source (positionAt source span.start)
      (positionAt source span.stop) := by
  have first := positionAt_inLines source span.start
  have last := positionAt_inLines source span.stop
  have forward := positionAt_place_le source span.ordered
  unfold ofSpan
  generalize positionAt source span.start = start at first forward ⊢
  generalize positionAt source span.stop = stop at last forward ⊢
  have exists_line : start.line - 1 < (splitLines source).length := by
    have := first.line_pos
    have := first.line_le
    omega
  have column_le := first.column_le
  have stop_le := last.column_le
  have column_pos := first.column_pos
  dsimp only
  constructor
  case line => rfl
  case column => rfl
  case shown =>
    rw [List.getD_eq_getElem?_getD, List.getElem?_eq_getElem exists_line, Option.getD_some]
  case line_pos => exact first.line_pos
  case column_pos => exact column_pos
  case inLine => exact Nat.sub_le_of_le_add column_le
  case marked => exact Nat.le_max_left _ _
  case sameLine =>
    intro same apart
    have le := Position.column_le_of_place_le forward same
    refine caretColumns_eq ?_
    dsimp only
    rw [if_pos same.symm]
    omega
  case samePlace =>
    intro same one
    dsimp only
    rw [if_pos same.symm, one, Nat.sub_self]
    rfl
  case acrossLines =>
    intro apart inside
    dsimp only at inside
    ext c
    simp only [caretColumns, if_neg (Ne.symm apart), Set.mem_Ico, Set.mem_Icc]
    omega
  case behindLine =>
    intro apart behind
    dsimp only at behind ⊢
    rw [if_neg (Ne.symm apart)]
    omega
  case within =>
    intro c mem
    dsimp only
    simp only [caretColumns, Set.mem_Ico] at mem
    split at mem
    · next same =>
      rw [same] at stop_le
      omega
    · omega

/-! ## Rows -/

theorem idxOf?_append_cons {c : Char} {front : List Char} (free : c ∉ front) (behind : List Char) :
    (front ++ c :: behind).idxOf? c = some front.length := by
  have long : front.length < (front ++ c :: behind).length := by
    rw [List.length_append, List.length_cons]
    omega
  refine List.idxOf?_eq_some_iff.mpr ⟨long, by simp, fun i before => ?_⟩
  rw [List.getElem_append_left before]
  exact ne_of_mem_of_not_mem (List.getElem_mem before) free

/-- What stands behind the carets. -/
def labelText (s : Snippet) : List Char := if s.label.isEmpty then [] else ' ' :: s.label.toList

/-- The last three rows of a snippet: their bars stand at one place, and column `c` of the line
shown stands `c + 1` characters further on. -/
structure Rows (s : Snippet) (bar : Nat) (blankRow lineRow caretRow : List Char) : Prop where
  blankBar : blankRow.idxOf? '|' = some bar ∧ blankRow.length = bar + 1
  lineBar : lineRow.idxOf? '|' = some bar
  caretBar : caretRow.idxOf? '|' = some bar
  shown : ∀ c, 1 ≤ c → lineRow[bar + 1 + c]? = s.shown[c - 1]?
  firstCaret : caretRow.idxOf? '^' = some (bar + 1 + s.column)
  carets : ∀ c ∈ s.caretColumns, caretRow[bar + 1 + c]? = some '^'
  behind : caretRow.drop (bar + 1 + s.column + s.carets) = s.labelText

theorem rows_of_texts {s : Snippet} (marked : 1 ≤ s.carets) {number : List Char}
    (free : '|' ∉ number) :
    s.Rows number.length (List.replicate number.length ' ' ++ ['|'])
      (number ++ '|' :: ' ' :: s.shown)
      (List.replicate number.length ' ' ++ '|' :: (List.replicate s.column ' ' ++
        (List.replicate s.carets '^' ++ s.labelText))) := by
  generalize length : number.length = bar
  have blanks : '|' ∉ List.replicate bar ' ' := by simp
  have idxOf := idxOf?_append_cons blanks
  rw [List.length_replicate] at idxOf
  have numberIdxOf := idxOf?_append_cons free (' ' :: s.shown)
  rw [length] at numberIdxOf
  -- the caret row up to its first caret
  have front (behind : List Char) : List.replicate bar ' ' ++ '|' :: (List.replicate s.column ' ' ++
      behind) = (List.replicate bar ' ' ++ '|' :: List.replicate s.column ' ') ++ behind := by
    simp
  have long : (List.replicate bar ' ' ++ '|' :: List.replicate s.column ' ').length =
      bar + 1 + s.column := by
    simp
    omega
  constructor
  case blankBar => exact ⟨idxOf [], by simp⟩
  case lineBar => exact numberIdxOf
  case caretBar => exact idxOf _
  case shown =>
    intro c pos
    rw [List.getElem?_append_right (by omega), length]
    obtain ⟨n, rfl⟩ := Nat.exists_eq_add_of_le pos
    rw [show bar + 1 + (1 + n) - bar = n + 1 + 1 by omega, Nat.add_sub_cancel_left]
    rfl
  case firstCaret =>
    obtain ⟨n, e⟩ := Nat.exists_eq_add_of_le marked
    rw [front, e, Nat.add_comm, List.replicate_succ, List.cons_append,
      idxOf?_append_cons (by simp), long]
  case carets =>
    intro c mem
    rw [caretColumns, Set.mem_Ico] at mem
    rw [front, List.getElem?_append_right (by omega), long,
      List.getElem?_append_left (by simp; omega), List.getElem?_replicate, if_pos (by omega)]
  case behind =>
    rw [front, ← long, List.drop_length_add_append]
    exact List.drop_left' List.length_replicate

/-- The last three rows of a snippet have their bar behind the digits of the line number. -/
theorem exists_rows {s : Snippet} (column_pos : 1 ≤ s.column) (marked : 1 ≤ s.carets) :
    ∃ place blankRow lineRow caretRow,
      s.lines = ["error: " ++ s.message, place, blankRow, lineRow, caretRow] ∧
      s.Rows (s.line.repr.length + 1) blankRow.toList lineRow.toList caretRow.toList := by
  have free : '|' ∉ s.line.repr.toList ++ [' '] := by
    rw [List.mem_append, not_or]
    exact ⟨fun mem => absurd (isDigit_of_mem_repr mem) (by decide), by decide⟩
  have rows := rows_of_texts marked free
  have length : (s.line.repr.toList ++ [' ']).length = s.line.repr.length + 1 := by
    rw [List.length_append, String.length_toList, List.length_singleton]
  rw [length] at rows
  obtain ⟨n, column⟩ := Nat.exists_eq_add_of_le' column_pos
  refine ⟨_, _, _, _, rfl, ?_⟩
  generalize s.line.repr = digits at rows ⊢
  convert rows using 1
  · simp [spaces]
  · simp
  · rw [column, Nat.add_sub_cancel, List.replicate_succ (n := n), labelText]
    split <;> simp [spaces]

/-! ## Snippets of spans -/

/-- A snippet shows a line of the source, the one on which the span begins, and marks it from there
to the end of the span or of the line. In its report the carets stand below those columns. -/
theorem ofSpan_geometry (message : String) (span : Span) (source : List Char)
    (filename label : String) :
    let s := ofSpan message span source filename label
    s.Frames source (positionAt source span.start) (positionAt source span.stop) ∧
    ∃ place blankRow lineRow caretRow,
      s.render = "\n".intercalate ["error: " ++ message, place, blankRow, lineRow, caretRow] ∧
      s.Rows (s.line.repr.length + 1) blankRow.toList lineRow.toList caretRow.toList := by
  intro s
  have frames := ofSpan_frames message span source filename label
  obtain ⟨place, blankRow, lineRow, caretRow, lines, rows⟩ :=
    exists_rows (s := s) frames.column_pos frames.marked
  refine ⟨frames, place, blankRow, lineRow, caretRow, ?_, rows⟩
  rw [render, lines]
  rfl

/-- A span that begins inside a line break is shown on the line behind it. -/
example : (ofSpan "m" ⟨2, 9, by decide⟩ "a\r\nb".toList "f" "x").render =
    "error: m\n  --> f:2:1\n  |\n2 | b\n  | ^ x" := by decide +kernel

end Snippet

end ScriptLexer
