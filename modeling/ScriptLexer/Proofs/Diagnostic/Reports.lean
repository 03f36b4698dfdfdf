import Mathlib.Data.List.Chain
import ScriptLexer.Scan
import ScriptLexer.Proofs.Number.Digits
import ScriptLexer.Proofs.Text.Quoted

/-
  Reports taken apart. A report has five lines, and no character, source or name of one line gets
  another line break into them (`Diagnostic.report_splits`). So no report has a blank line in it or
  at its ends, and the reports of a refused source are what stands between the blank lines
  (`LexError.render_splits`).
-/

namespace ScriptLexer

/-! ## Blank lines -/

/-- The parts of a text between its blank lines: it is cut where two line feeds follow each
other. -/
def splitBlankLines : List Char → List (List Char)
  | [] => [[]]
  | '\n' :: '\n' :: rest => [] :: splitBlankLines rest
  | c :: rest => (splitBlankLines rest).modifyHead (c :: ·)

/-- No two line feeds follow each other in the text, and none ends it. -/
def Solid (text : List Char) : Prop :=
  (text ++ ['\n']).IsChain fun c d => ¬(c = '\n' ∧ d = '\n')

theorem splitBlankLines_cons {c : Char} {rest : List Char}
    (apart : ¬(c = '\n' ∧ rest.head? = some '\n')) :
    splitBlankLines (c :: rest) = (splitBlankLines rest).modifyHead (c :: ·) := by
  rw [splitBlankLines]
  rintro behind rfl rfl
  exact apart ⟨rfl, rfl⟩

theorem solid_cons {c : Char} {text : List Char} :
    Solid (c :: text) ↔ ¬(c = '\n' ∧ (text ++ ['\n']).head? = some '\n') ∧ Solid text := by
  rw [Solid, Solid, List.cons_append, List.isChain_cons]
  refine and_congr_left fun _ => ⟨fun apart both => apart '\n' both.2 ⟨both.1, rfl⟩, ?_⟩
  rintro apart d head ⟨feed, rfl⟩
  exact apart ⟨feed, head⟩

/-- What has no blank line belongs to the first part. -/
theorem Solid.splitBlankLines_append {text : List Char} (solid : Solid text)
    (behind : List Char) :
    splitBlankLines (text ++ behind) = (splitBlankLines behind).modifyHead (text ++ ·) := by
  induction text with
  | nil =>
    show _ = (splitBlankLines behind).modifyHead id
    rw [List.modifyHead_id]
    rfl
  | cons c text ih =>
    obtain ⟨apart, solid⟩ := solid_cons.mp solid
    rw [List.cons_append, splitBlankLines_cons, ih solid, List.modifyHead_modifyHead]
    · rfl
    · rintro ⟨feed, head⟩
      refine apart ⟨feed, ?_⟩
      cases text with
      | nil => rfl
      | cons d text => exact head

theorem splitBlankLines_intercalate {parts : List (List Char)} (some : parts ≠ [])
    (solid : ∀ part ∈ parts, Solid part) :
    splitBlankLines (['\n', '\n'].intercalate parts) = parts := by
  induction parts with
  | nil => exact absurd rfl some
  | cons part parts ih =>
    have first := (List.forall_mem_cons.mp solid).1
    cases parts with
    | nil =>
      have alone := first.splitBlankLines_append []
      rw [List.append_nil] at alone
      rw [List.intercalate_singleton, alone, splitBlankLines, List.modifyHead_cons, List.append_nil]
    | cons next parts =>
      have ih := ih (List.cons_ne_nil _ _) (List.forall_mem_cons.mp solid).2
      rw [List.intercalate_cons_cons, List.append_assoc, first.splitBlankLines_append,
        List.cons_append, List.singleton_append, splitBlankLines, ih, List.modifyHead_cons,
        List.append_nil]

theorem solid_append {line : List Char} (free : '\n' ∉ line) {rest : List Char}
    (solid : Solid rest) : Solid (line ++ rest) := by
  induction line with
  | nil => exact solid
  | cons c line ih =>
    rw [List.mem_cons, not_or] at free
    exact solid_cons.mpr ⟨fun both => free.1 both.1.symm, ih free.2⟩

/-- A line with something in it. -/
structure FilledLine (line : List Char) : Prop where
  some : line ≠ []
  free : '\n' ∉ line

theorem FilledLine.head?_ne {line : List Char} (h : FilledLine line) (rest : List Char) :
    (line ++ rest).head? ≠ Option.some '\n' := by
  obtain ⟨c, line, rfl⟩ := List.exists_cons_of_ne_nil h.some
  rintro ⟨⟩
  exact h.free List.mem_cons_self

/-- A text of such lines has no blank line. -/
theorem solid_intercalate {lines : List (List Char)} (filled : ∀ line ∈ lines, FilledLine line) :
    Solid (['\n'].intercalate lines) := by
  have nothing : Solid [] := List.isChain_singleton _
  induction lines with
  | nil => exact nothing
  | cons line lines ih =>
    obtain ⟨first, others⟩ := List.forall_mem_cons.mp filled
    cases lines with
    | nil =>
      rw [List.intercalate_singleton, ← List.append_nil line]
      exact solid_append first.free nothing
    | cons next lines =>
      rw [List.intercalate_cons_cons, List.append_assoc, List.singleton_append]
      refine solid_append first.free (solid_cons.mpr ⟨fun both => ?_, ih others⟩)
      have behind := (others next List.mem_cons_self).head?_ne
      cases lines with
      | nil =>
        rw [List.intercalate_singleton] at both
        exact behind _ both.2
      | cons _ _ =>
        rw [List.intercalate_cons_cons, List.append_assoc, List.append_assoc] at both
        exact behind _ both.2

/-! ## The lines of a report -/

theorem newline_not_mem_splitLines (text : List Char) :
    ∀ line ∈ splitLines text, '\n' ∉ line := by
  fun_induction splitLines text with
  | case1 => exact List.forall_mem_singleton.mpr List.not_mem_nil
  | case2 rest ih => exact List.forall_mem_cons.mpr ⟨List.not_mem_nil, ih⟩
  | case3 c rest pair ends ih => exact List.forall_mem_cons.mpr ⟨List.not_mem_nil, ih⟩
  | case4 c rest pair inside nothing => exact absurd nothing (splitLines_ne_nil rest)
  | case5 c rest pair inside line lines split ih =>
    rw [split, List.forall_mem_cons] at ih
    refine List.forall_mem_cons.mpr ⟨fun mem => ?_, ih.2⟩
    rcases List.mem_cons.mp mem with feed | mem
    · exact inside (Or.inr feed.symm)
    · exact ih.1 mem

namespace Diagnostic

theorem newline_not_mem_displayed (char : String) : '\n' ∉ (displayed char).toList := by
  unfold displayed
  split
  · decide
  split
  · next printable =>
    intro mem
    have := List.all_eq_true.mp printable '\n' mem
    rw [not_isPrintable_of_lt_space (by decide)] at this
    contradiction
  · rw [escapedAscii, String.toList_ofList, Quoted.body]
    intro mem
    obtain ⟨c, -, mem⟩ := List.mem_flatMap.mp mem
    exact Quoted.newline_not_mem_escape _ (Quoted.quoteFor_eq _) c mem

theorem filledLine_text (kind : DiagnosticKind) : FilledLine kind.text.toList := by
  cases kind <;> exact ⟨by decide, by decide⟩

theorem newline_not_mem_message (d : Diagnostic) : '\n' ∉ d.message.toList := by
  have text := (filledLine_text d.kind).free
  have char := newline_not_mem_displayed d.char
  have same (s : String) : toString s = s := rfl
  unfold message
  split
  · simp [same, text, char]
  · exact text

end Diagnostic

theorem Snippet.filledLine_lines {s : Snippet} (message : '\n' ∉ s.message.toList)
    (filename : '\n' ∉ s.filename.toList) (shown : '\n' ∉ s.shown)
    (label : '\n' ∉ s.label.toList) : ∀ line ∈ s.lines, FilledLine line.toList := by
  have digits (n : Nat) : '\n' ∉ n.repr.toList :=
    fun mem => absurd (isDigit_of_mem_repr mem) (by decide)
  have line := digits s.line
  have column := digits s.column
  unfold lines
  generalize s.line.repr = number at line ⊢
  generalize s.column.repr = place at column ⊢
  simp only [List.forall_mem_cons]
  refine ⟨⟨?_, ?_⟩, ⟨?_, ?_⟩, ⟨?_, ?_⟩, ⟨?_, ?_⟩, ⟨?_, ?_⟩, List.forall_mem_nil _⟩
  · simp
  · simp [message]
  · simp
  · simp [spaces, filename, line, column]
  · simp
  · simp [spaces]
  · simp
  · simp [shown, line]
  · simp
  · split <;> simp [spaces, label]

/-- The lines of a report. -/
theorem Diagnostic.exists_report_lines (d : Diagnostic) (source : String) {filename : String}
    (oneLine : '\n' ∉ filename.toList) : ∃ lines : List (List Char), lines.length = 5 ∧
      (∀ line ∈ lines, FilledLine line) ∧
      (d.report source filename).toList = ['\n'].intercalate lines := by
  have shown (i : Nat) : '\n' ∉ (splitLines source.toList).getD i [] := by
    rw [List.getD_eq_getElem?_getD]
    cases found : (splitLines source.toList)[i]? with
    | none => exact List.not_mem_nil
    | some line => exact newline_not_mem_splitLines _ _ (List.mem_of_getElem? found)
  refine ⟨(Snippet.ofSpan d.message d.span source.toList filename d.kind.text).lines.map
    String.toList, rfl, List.forall_mem_map.mpr ?_, ?_⟩
  · exact Snippet.filledLine_lines d.newline_not_mem_message oneLine (shown _)
      (filledLine_text _).free
  · rw [report, Snippet.render, String.toList_intercalate]
    rfl

theorem Diagnostic.report_splits (d : Diagnostic) (source : String) {filename : String}
    (oneLine : '\n' ∉ filename.toList) :
    ((d.report source filename).toList.splitOn '\n').length = 5 ∧
      ∀ line ∈ (d.report source filename).toList.splitOn '\n', line ≠ [] := by
  obtain ⟨lines, five, filled, text⟩ := d.exists_report_lines source oneLine
  have some : lines ≠ [] := fun none => by simp [none] at five
  rw [text, List.splitOn_intercalate _ (fun line mem => (filled line mem).free) some]
  exact ⟨five, fun line mem => (filled line mem).some⟩

theorem Diagnostic.solid_report (d : Diagnostic) (source : String) {filename : String}
    (oneLine : '\n' ∉ filename.toList) : Solid (d.report source filename).toList := by
  obtain ⟨lines, -, filled, text⟩ := d.exists_report_lines source oneLine
  rw [text]
  exact solid_intercalate filled

/-! ## Refusals -/

theorem Scan.strict_eq_error_iff {source : String} {e : LexError} :
    strict source = .error e ↔
      (ofText source).diagnostics ≠ [] ∧ e = ⟨(ofText source).diagnostics, source⟩ := by
  unfold strict
  dsimp only
  split
  · next none => simp [List.isEmpty_iff.mp none]
  · next some =>
    rw [List.isEmpty_iff] at some
    rw [Except.error.injEq, eq_comm]
    exact (and_iff_right some).symm

namespace LexError

/-- A source is refused if there is any diagnostic on it, with all of them, and its tokens are
given if there is none. Whatever the characters, the spans and the source, a report has five lines
with something in each; so the reports of a refusal are what stands between its blank lines. -/
theorem render_splits (filename : String) (oneLine : '\n' ∉ filename.toList) :
    (∀ source : String,
      ((∃ e, Scan.strict source = .error e) ↔ (Scan.ofText source).diagnostics ≠ []) ∧
      (∀ e, Scan.strict source = .error e → e = ⟨(Scan.ofText source).diagnostics, source⟩) ∧
      ((Scan.ofText source).diagnostics = [] →
        Scan.strict source = .ok (Scan.ofText source).tokens)) ∧
    (∀ (d : Diagnostic) (source : String),
      ((d.report source filename).toList.splitOn '\n').length = 5 ∧
      ∀ line ∈ (d.report source filename).toList.splitOn '\n', line ≠ []) ∧
    ∀ e : LexError, e.diagnostics ≠ [] →
      (splitBlankLines (e.render filename).toList).map String.ofList =
        e.diagnostics.map fun d => d.report e.source filename := by
  refine ⟨fun source => ⟨?_, fun e refused => (Scan.strict_eq_error_iff.mp refused).2, ?_⟩,
    fun d source => d.report_splits source oneLine, fun e some => ?_⟩
  · simp [Scan.strict_eq_error_iff]
  · intro none
    rw [Scan.strict, none]
    rfl
  · have solid : ∀ text ∈ (e.diagnostics.map fun d => d.report e.source filename).map
        String.toList, Solid text := by
      simp only [List.forall_mem_map]
      exact fun d _ => d.solid_report e.source oneLine
    have split := splitBlankLines_intercalate (by simpa using some) solid
    rw [render, String.toList_intercalate]
    show (splitBlankLines (['\n', '\n'].intercalate _)).map _ = _
    rw [split, List.map_map, Function.comp_def]
    simp only [String.ofList_toList, List.map_id']

/-- Line breaks as the character of one diagnostic, none of another, and in the source; one span
begins in front of the source, and the other inside a break. -/
def breaksEverywhere : LexError :=
  ⟨[⟨.unexpectedToken, "\n\n", ⟨-3, 1, by decide⟩⟩, ⟨.unexpectedNumber, "", ⟨2, 99, by decide⟩⟩],
    "a\r\n\nb"⟩

theorem render_splits_breaks :
    '\n' ∉ "a.js".toList ∧
    (splitBlankLines (breaksEverywhere.render "a.js").toList).map String.ofList =
      ["error: unexpected token `\\n\\n`\n  --> a.js:1:1\n  |\n1 | a\n  | ^ unexpected token",
        "error: unexpected number `end of input`\n  --> a.js:2:1\n  |\n2 | \n  | ^ unexpected number"] := by
  have oneLine : '\n' ∉ "a.js".toList := by decide
  refine ⟨oneLine, ?_⟩
  rw [(render_splits "a.js" oneLine).2.2 breaksEverywhere (List.cons_ne_nil _ _)]
  decide +kernel

end LexError

end ScriptLexer
