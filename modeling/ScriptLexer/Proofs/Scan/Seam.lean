import ScriptLexer.Proofs.Scan.Fit
import ScriptLexer.Proofs.Scan.RunOnly

/-
  Constructs at the end of a text behind which another text is put. No construct tells the end of
  the text from a blank, except those that have not come to their own end: an open string and an
  open comment (`Construct.Reads.append`).
-/

namespace ScriptLexer

theorem stringBody_cons {c : Char} (plain : c ≠ '\\') (quote : Char) (rest : List Char) :
    stringBody quote (c :: rest) =
      if c = quote then ⟨[], 1, true⟩ else (stringBody quote rest).cons c 1 := by
  rw [stringBody]
  · exact fun backslash _ => plain backslash
  · exact fun _ _ backslash _ => plain backslash

/-- What is left after the two rows of `stringBody` for a backslash is none. -/
theorem ne_backslash {c : Char} {rest : List Char} (last : c = '\\' → rest = [] → False)
    (pair : ∀ d more, c = '\\' → rest = d :: more → False) : c ≠ '\\' := by
  intro backslash
  cases rest with
  | nil => exact last backslash rfl
  | cons d more => exact pair d more backslash rfl

theorem stringBody_append {quote : Char} {rest : List Char}
    (closed : (stringBody quote rest).closed = true) (more : List Char) :
    stringBody quote (rest ++ more) = stringBody quote rest := by
  fun_induction stringBody quote rest with
  | case1 => contradiction
  | case2 => contradiction
  | case3 c rest ih => rw [List.cons_append, List.cons_append, stringBody, ih closed]
  | case4 rest last pair =>
    rw [List.cons_append, stringBody_cons (ne_backslash last pair), if_pos rfl]
  | case5 c rest last pair other ih =>
    rw [List.cons_append, stringBody_cons (ne_backslash last pair), if_neg other, ih closed]

/-- A string that is never closed goes up to the end of the text. -/
theorem stringBody_length_of_open {quote : Char} {rest : List Char}
    (opened : ¬(stringBody quote rest).closed = true) :
    (stringBody quote rest).length = rest.length := by
  fun_induction stringBody quote rest with
  | case1 => rfl
  | case2 => rfl
  | case3 c rest ih =>
    rw [StringBody.cons, ih opened, List.length_cons, List.length_cons, Nat.add_comm 2]
  | case4 => exact absurd rfl opened
  | case5 c rest _ _ other ih => rw [StringBody.cons, ih opened, List.length_cons, Nat.add_comm 1]

theorem readString_append {quote : Char} {rest : List Char}
    (closed : (stringBody quote rest).closed = true) (more : List Char) :
    readString quote (rest ++ more) = readString quote rest := by
  have room : 1 + (stringBody quote rest).length ≤ (quote :: rest).length := by
    have := stringBody_length_le quote rest
    rw [List.length_cons]
    omega
  simp only [readString, stringBody_append closed, ← List.cons_append,
    List.take_append_of_le_length room]

/-- A line comment without a line terminator goes up to the end of the text. -/
theorem lineCommentLength_eq {body : List Char}
    (none : ∀ c ∈ body, isLineTerminator c = false) : lineCommentLength body = body.length := by
  induction body with
  | nil => rfl
  | cons c body ih =>
    rw [List.forall_mem_cons] at none
    rw [lineCommentLength, none.1, ih none.2, List.length_cons, Nat.add_comm]
    rfl

theorem lineCommentLength_append {body : List Char}
    (ends : ∃ c ∈ body, isLineTerminator c = true) (more : List Char) :
    lineCommentLength (body ++ more) = lineCommentLength body := by
  induction body with
  | nil =>
    obtain ⟨c, mem, _⟩ := ends
    contradiction
  | cons c body ih =>
    rw [List.cons_append, lineCommentLength, lineCommentLength]
    by_cases terminator : isLineTerminator c = true
    · rw [if_pos terminator, if_pos terminator]
    · obtain ⟨d, mem, ends⟩ := ends
      rcases List.mem_cons.mp mem with rfl | mem
      · contradiction
      · rw [if_neg terminator, if_neg terminator, ih ⟨d, mem, ends⟩]

theorem blockComment_append {body : List Char} (closed : (blockComment body).2 = true)
    (more : List Char) : blockComment (body ++ more) = blockComment body := by
  fun_induction blockComment body with
  | case1 => contradiction
  | case2 => rfl
  | case3 c rest notClosing tail ih =>
    rw [List.cons_append, blockComment, ih closed]
    -- a star at the very end would be unclosed, so the slash is not from behind
    intro behind star slash
    cases rest with
    | nil => contradiction
    | cons d rest =>
      obtain ⟨rfl, -⟩ := List.cons.inj slash
      exact notClosing rest star rfl

/-- A block comment that is never closed goes up to the end of the text. -/
theorem blockComment_length_of_open {body : List Char}
    (opened : ¬(blockComment body).2 = true) : (blockComment body).1 = body.length := by
  fun_induction blockComment body with
  | case1 => rfl
  | case2 => exact absurd rfl opened
  | case3 c rest _ tail ih =>
    show 1 + (blockComment rest).1 = rest.length + 1
    rw [ih opened, Nat.add_comm]

namespace Construct

/-- The construct has come to its own end in the text behind its first character. -/
structure Closed (k : Construct) (rest : List Char) : Prop where
  string : ∀ f ∈ k.faults, f.kind ≠ .unterminatedString
  comment : ∀ f ∈ k.faults, f.kind ≠ .unterminatedComment
  line : k.kind = .lineComment → ∃ c ∈ rest, isLineTerminator c = true

theorem Closed.stringBody {quote : Char} {rest : List Char}
    (h : (readString quote rest).Closed rest) : (stringBody quote rest).closed = true := by
  by_contra opened
  have faults : (readString quote rest).faults =
      [⟨.unterminatedString, quote, 0, 1 + (ScriptLexer.stringBody quote rest).length⟩] := by
    unfold readString
    dsimp only
    rw [if_neg opened]
  exact h.string _ (faults ▸ List.mem_singleton_self _) rfl

theorem Closed.blockComment {body : List Char}
    (h : (readBlockComment body).Closed ('*' :: body)) : (blockComment body).2 = true := by
  by_contra opened
  have faults : (readBlockComment body).faults =
      [⟨.unterminatedComment, '*', 0, 2 + (ScriptLexer.blockComment body).1⟩] := by
    unfold readBlockComment
    dsimp only
    rw [if_neg opened]
  exact h.comment _ (faults ▸ List.mem_singleton_self _) rfl

theorem Closed.line_body {body : List Char} (h : (readLineComment body).Closed ('/' :: body)) :
    ∃ c ∈ body, isLineTerminator c = true := by
  obtain ⟨c, mem, ends⟩ := h.line rfl
  rcases List.mem_cons.mp mem with rfl | mem
  · exact absurd ends (by decide)
  · exact ⟨c, mem, ends⟩

theorem closed_of_faultless {k : Construct} {rest : List Char} (faultless : k.faults = [])
    (line : k.kind = .lineComment → ∃ c ∈ rest, isLineTerminator c = true) : k.Closed rest where
  string := by simp [faultless]
  comment := by simp [faultless]
  line := line

/-- A string or comment has come to its own end if the text goes on behind it. -/
theorem Reads.closed_of_lt {head : Char} {rest : List Char} {k : Construct}
    (reads : Reads head rest k) (own : ¬k.EndsWithRun) (room : k.taken < (head :: rest).length) :
    k.Closed rest := by
  cases reads with
  | string =>
    have closed : (ScriptLexer.stringBody head rest).closed = true := by
      by_contra opened
      have whole := stringBody_length_of_open opened
      have room : 1 + (ScriptLexer.stringBody head rest).length < rest.length + 1 := room
      omega
    exact closed_of_faultless (by simp [readString, closed]) fun kind => by cases kind
  | @lineComment body =>
    refine closed_of_faultless rfl fun _ => ?_
    by_contra none
    have inner : ∀ c ∈ body, isLineTerminator c = false := by
      intro c mem
      rw [← Bool.not_eq_true]
      exact fun ends => none ⟨c, List.mem_cons_of_mem _ mem, ends⟩
    have room : 2 + lineCommentLength body < body.length + 2 := room
    rw [lineCommentLength_eq inner] at room
    omega
  | @blockComment body =>
    have closed : (ScriptLexer.blockComment body).2 = true := by
      by_contra opened
      have whole := blockComment_length_of_open opened
      have room : 2 + (ScriptLexer.blockComment body).1 < body.length + 2 := room
      omega
    exact closed_of_faultless (by simp [readBlockComment, closed]) fun kind => by cases kind
  | symbol => exact absurd (readSymbol_endsWithRun _) own
  | _ => exact absurd (of_decide_eq_true rfl) own

/-- A string or comment that has come to its own end does not look past it. -/
theorem Reads.append_closed {head : Char} {rest : List Char} {k : Construct}
    (reads : Reads head rest k) (own : ¬k.EndsWithRun) (closed : k.Closed rest)
    (more : List Char) : Reads head (rest ++ more) k := by
  cases reads with
  | string opening =>
    rw [← readString_append closed.stringBody more]
    exact .string opening
  | @lineComment body =>
    have same : readLineComment body = readLineComment (body ++ more) := by
      simp only [readLineComment, lineCommentLength_append closed.line_body]
    rw [same]
    exact .lineComment
  | @blockComment body =>
    have same : readBlockComment body = readBlockComment (body ++ more) := by
      simp only [readBlockComment, blockComment_append closed.blockComment]
    rw [same]
    exact .blockComment
  | symbol => exact absurd (readSymbol_endsWithRun _) own
  | _ => exact absurd (of_decide_eq_true rfl) own

/-- A construct that has come to its own end does not look past a boundary. -/
theorem Reads.append {head : Char} {rest more : List Char} {k : Construct}
    (reads : Reads head rest k) (boundary : AtBoundary more) (closed : k.Closed rest) :
    Reads head (rest ++ more) k := by
  by_cases ends : k.EndsWithRun
  · exact reads.of_run_eq (run_append boundary).symm ends
  · exact reads.append_closed ends closed more

end Construct

end ScriptLexer
