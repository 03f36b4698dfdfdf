import Mathlib.Data.List.Forall2
import ScriptLexer.Editor
import ScriptLexer.Proofs.Text.Lines
import ScriptLexer.Proofs.Scan.Stop

/-
  Scans of a text and of the same text with its line breaks unified. Each construct of the one
  stands in the other (`Construct.Reads.exists_unified`), faults included, and no fault begins or
  ends inside a break. So both scans have the same tokens but for the text of strings, and the same
  diagnostics on the same lines and columns (`Scan.ofText_unifyBreaks`). A line comment may end
  inside a break: the line feed behind it is then a blank, of which nothing is left in the unified
  text (`Scan.unifiedBehind`).
-/

namespace ScriptLexer

/-- The text with each of its line breaks replaced by a line feed. -/
def unifyBreaks (text : String) : String := .ofList (normalizeBreaks text.toList)

theorem ne_break_of_not_isBlank {c : Char} (dark : isBlank c = false) : c ≠ '\r' ∧ c ≠ '\n' := by
  constructor <;> rintro rfl <;> contradiction

/-- A fault in the construct at the front of a text, and the same one in the unified text. -/
structure Fault.Unified (text : List Char) (f f' : Fault) : Prop where
  kind : f'.kind = f.kind
  char : f'.char = f.char
  start : SamePlace text f.start f'.start
  stop : SamePlace text (f.start + f.length) (f'.start + f'.length)

/-- A fault of all that stands in front of a place. -/
theorem Fault.unified_of_place {text : List Char} {i j : Nat} (place : SamePlace text i j)
    (kind : DiagnosticKind) (char : Char) :
    (Fault.mk kind char 0 i).Unified text ⟨kind, char, 0, j⟩ where
  kind := rfl
  char := rfl
  start := samePlace_zero text
  stop := by
    rw [Nat.zero_add, Nat.zero_add]
    exact place

namespace Construct

/-- A construct at the front of a text, and the same one in the unified text. -/
structure Unified (text : List Char) (k k' : Construct) : Prop where
  kind : k'.kind = k.kind
  value : k.kind ≠ .string → k'.value = k.value
  raw : k'.raw = k.raw.map unifyBreaks
  taken : k'.taken = (normalizeBreaks (text.take k.taken)).length
  faults : List.Forall₂ (Fault.Unified text) k.faults k'.faults

end Construct

/-! ## Constructs that end with their run -/

theorem run_normalizeBreaks (text : List Char) : run (normalizeBreaks text) = run text := by
  induction text using breaksInduction with
  | nil => rfl
  | pair rest _ =>
    rw [normalizeBreaks_pair, run_eq_nil (atBoundary_cons.mpr (by decide)),
      run_eq_nil (atBoundary_cons.mpr (by decide))]
  | single c rest whole ih =>
    rw [normalizeBreaks_cons whole]
    by_cases blank : isBlank c = true
    · have blank' : isBlank (unified c) = true := by rw [isBlank_unified, blank]
      rw [run_eq_nil (atBoundary_cons.mpr blank), run_eq_nil (atBoundary_cons.mpr blank')]
    · rw [Bool.not_eq_true] at blank
      rw [unified_of_ne (ne_break_of_not_isBlank blank).1, run_cons blank, run_cons blank, ih]

/-- No break stands in front of the end of a run. -/
theorem samePlace_in_run {head : Char} (dark : isBlank head = false) (rest : List Char) {i : Nat}
    (le : i ≤ (head :: run rest).length) : SamePlace (head :: rest) i i := by
  obtain ⟨more, e, -⟩ := exists_run rest
  have ahead : head :: rest = (head :: run rest) ++ more := by rw [List.cons_append, ← e]
  refine samePlace_of_take ?_ fun mem => ?_
  · rw [ahead, List.length_append]
    exact Nat.le_add_right_of_le le
  · rw [ahead, List.take_append_of_le_length le] at mem
    rcases List.mem_cons.mp (List.mem_of_mem_take mem) with ret | mem
    · exact (ne_break_of_not_isBlank dark).1 ret.symm
    · exact (ne_break_of_not_isBlank (not_isBlank_of_mem_run mem)).1 rfl

namespace Construct

theorem Reads.raw_eq_none {head : Char} {rest : List Char} {k : Construct}
    (reads : Reads head rest k) (other : k.kind ≠ .string) : k.raw = none := by
  cases reads with
  | string => exact absurd rfl other
  | _ => rfl

theorem Reads.unified_of_endsWithRun {head : Char} {rest : List Char} {k : Construct}
    (reads : Reads head rest k) (ends : k.EndsWithRun) :
    Reads head (normalizeBreaks rest) k ∧ k.Unified (head :: rest) k := by
  have dark := reads.not_isBlank
  have short := (reads.of_run_eq (run_run rest).symm ends).fitsIn
  have place {i : Nat} (le : i ≤ (head :: run rest).length) : SamePlace (head :: rest) i i :=
    samePlace_in_run dark rest le
  refine ⟨reads.of_run_eq (run_normalizeBreaks rest).symm ends, ?_⟩
  constructor
  case kind => rfl
  case value => exact fun _ => rfl
  case raw => rw [reads.raw_eq_none ends.1, Option.map_none]
  case taken => exact (place short.taken_le).length_take.symm
  case faults =>
    refine List.forall₂_same.mpr fun f mem => ?_
    have le := short.fault_le f mem
    exact ⟨rfl, rfl, place (Nat.le_of_add_right_le le), place le⟩

end Construct

/-! ## Strings -/

theorem stringBody_length_pos {quote c : Char} (plain : c ≠ '\\') (rest : List Char) :
    0 < (stringBody quote (c :: rest)).length := by
  rw [stringBody_cons plain]
  split
  · exact Nat.one_pos
  · exact Nat.lt_of_lt_of_le Nat.one_pos (Nat.le_add_right _ _)

theorem stringBody_unified {quote : Char} (opening : quote = '"' ∨ quote = '\'')
    (rest : List Char) :
    (stringBody quote (normalizeBreaks rest)).closed = (stringBody quote rest).closed ∧
    SamePlace rest (stringBody quote rest).length
      (stringBody quote (normalizeBreaks rest)).length := by
  obtain ⟨noReturn, noFeed⟩ := ne_break_of_not_isBlank (not_isBlank_of_quote opening)
  have unescaped := not_backslash_of_quote opening
  have escape (rest : List Char) : Unbroken ['\\'] rest := unbroken_of_ne (by decide) rest
  fun_induction stringBody quote rest with
  | case1 => exact ⟨rfl, samePlace_zero []⟩
  | case2 => exact ⟨rfl, samePlace_length ['\\']⟩
  | case3 c rest ih =>
    rw [normalizeBreaks_cons_of_ne (by decide)]
    rcases unbroken_or_pair c rest with whole | ⟨rfl, behind, rfl⟩
    · rw [normalizeBreaks_cons whole, stringBody]
      refine ⟨ih.1, ?_⟩
      have place := (ih.2.cons whole).cons (escape _)
      rwa [← Nat.add_assoc, ← Nat.add_assoc] at place
    · -- the carriage return is escaped alone, and the line feed stands for itself
      rw [normalizeBreaks_cons_of_ne (by decide), stringBody_cons (by decide),
        if_neg noFeed.symm] at ih
      dsimp only [StringBody.cons] at ih
      rw [normalizeBreaks_pair, stringBody]
      refine ⟨ih.1, ?_⟩
      have pos : 0 < (stringBody quote ('\n' :: behind)).length :=
        stringBody_length_pos (by decide) behind
      have place := (ih.2.cons_return rfl pos).cons (escape _)
      rwa [← Nat.add_assoc, ← Nat.add_assoc] at place
  | case4 rest =>
    rw [normalizeBreaks_cons_of_ne noReturn, stringBody_cons unescaped, if_pos rfl]
    exact ⟨rfl, (samePlace_zero rest).cons (unbroken_of_ne noReturn rest)⟩
  | case5 c rest last pair other ih =>
    have plain := ne_backslash last pair
    rcases unbroken_or_pair c rest with whole | ⟨rfl, behind, rfl⟩
    · have plain' : unified c ≠ '\\' := by
        rwa [Ne, unified_eq_iff (by decide) (by decide)]
      have other' : unified c ≠ quote := by
        rwa [Ne, unified_eq_iff noFeed noReturn]
      rw [normalizeBreaks_cons whole, stringBody_cons plain', if_neg other']
      exact ⟨ih.1, ih.2.cons whole⟩
    · rw [normalizeBreaks_return rfl]
      exact ⟨ih.1, ih.2.cons_return rfl (stringBody_length_pos (by decide) behind)⟩

theorem readString_unified {quote : Char} (opening : quote = '"' ∨ quote = '\'')
    (rest : List Char) :
    (readString quote rest).Unified (quote :: rest) (readString quote (normalizeBreaks rest)) := by
  obtain ⟨closed, place⟩ := stringBody_unified opening rest
  have noReturn := (ne_break_of_not_isBlank (not_isBlank_of_quote opening)).1
  have place := place.cons (unbroken_of_ne noReturn rest)
  constructor
  case kind => rfl
  case value => exact fun other => absurd rfl other
  case raw =>
    simp only [readString, ← normalizeBreaks_cons_of_ne noReturn, place.take_eq, Option.map_some,
      unifyBreaks, String.toList_ofList]
  case taken => exact place.length_take.symm
  case faults =>
    simp only [readString, closed]
    split
    · exact .nil
    · exact .cons (Fault.unified_of_place place _ _) .nil

/-! ## Comments -/

theorem lineCommentLength_unified (body : List Char) :
    lineCommentLength (normalizeBreaks body) =
      (normalizeBreaks (body.take (lineCommentLength body))).length := by
  induction body using breaksInduction with
  | nil => rfl
  | pair rest _ =>
    -- the comment ends with the carriage return
    rw [normalizeBreaks_pair, lineCommentLength, lineCommentLength, if_pos (by decide),
      if_pos (by decide)]
    rfl
  | single c rest whole ih =>
    rw [normalizeBreaks_cons whole, lineCommentLength, lineCommentLength, isLineTerminator_unified]
    by_cases ends : isLineTerminator c = true
    · rw [if_pos ends, if_pos ends, List.take_succ_cons, List.take_zero,
        normalizeBreaks_cons (unbroken_at_end [c])]
      rfl
    · have noReturn : c ≠ '\r' := by
        rintro rfl
        exact ends (by decide)
      rw [if_neg ends, if_neg ends, ih, Nat.add_comm 1 (lineCommentLength rest),
        List.take_succ_cons, normalizeBreaks_cons_of_ne noReturn, List.length_cons,
        Nat.add_comm 1]

theorem readLineComment_unified (body : List Char) :
    (readLineComment body).Unified ('/' :: '/' :: body)
      (readLineComment (normalizeBreaks body)) where
  kind := rfl
  value _ := rfl
  raw := rfl
  taken := by
    show 2 + lineCommentLength (normalizeBreaks body) = (normalizeBreaks
      (('/' :: '/' :: body).take (2 + lineCommentLength body))).length
    rw [lineCommentLength_unified, Nat.add_comm 2 (lineCommentLength body), List.take_succ_cons,
      List.take_succ_cons, normalizeBreaks_cons_of_ne (by decide),
      normalizeBreaks_cons_of_ne (by decide), List.length_cons, List.length_cons, Nat.add_comm 2]
  faults := .nil

theorem blockComment_length_pos (c : Char) (rest : List Char) :
    0 < (blockComment (c :: rest)).1 := by
  unfold blockComment
  split
  · contradiction
  · exact Nat.two_pos
  · exact Nat.lt_of_lt_of_le Nat.one_pos (Nat.le_add_right _ _)

/-- Unifying breaks makes no end of a comment. -/
theorem not_closing_unified {c : Char} {rest : List Char}
    (notClosing : ∀ behind, c = '*' → rest = '/' :: behind → False) :
    ∀ behind, unified c = '*' → normalizeBreaks rest = '/' :: behind → False := by
  intro behind star slash
  have head := head?_normalizeBreaks rest
  rw [slash, List.head?_cons, eq_comm, Option.map_eq_some_iff] at head
  obtain ⟨d, ahead, e⟩ := head
  rw [unified_eq_iff (by decide) (by decide)] at star e
  obtain ⟨more, rfl⟩ := List.head?_eq_some_iff.mp ahead
  exact notClosing more star (by rw [e])

theorem blockComment_unified (body : List Char) :
    (blockComment (normalizeBreaks body)).2 = (blockComment body).2 ∧
    SamePlace body (blockComment body).1 (blockComment (normalizeBreaks body)).1 := by
  fun_induction blockComment body with
  | case1 => exact ⟨rfl, samePlace_zero []⟩
  | case2 rest =>
    have star := unbroken_of_ne (c := '*') (by decide) ('/' :: rest)
    have slash := unbroken_of_ne (c := '/') (by decide) rest
    rw [normalizeBreaks_cons_of_ne (by decide), normalizeBreaks_cons_of_ne (by decide)]
    exact ⟨rfl, ((samePlace_zero rest).cons slash).cons star⟩
  | case3 c rest notClosing tail ih =>
    rcases unbroken_or_pair c rest with whole | ⟨rfl, behind, rfl⟩
    · rw [normalizeBreaks_cons whole, blockComment]
      · exact ⟨ih.1, ih.2.cons whole⟩
      · exact not_closing_unified notClosing
    · rw [normalizeBreaks_return rfl]
      exact ⟨ih.1, ih.2.cons_return rfl (blockComment_length_pos _ behind)⟩

theorem readBlockComment_unified (body : List Char) :
    (readBlockComment body).Unified ('/' :: '*' :: body)
      (readBlockComment (normalizeBreaks body)) := by
  obtain ⟨closed, place⟩ := blockComment_unified body
  have place := (place.cons (unbroken_of_ne (c := '*') (by decide) body)).cons
    (unbroken_of_ne (c := '/') (by decide) _)
  rw [← Nat.add_assoc, ← Nat.add_assoc] at place
  constructor
  case kind => rfl
  case value => exact fun _ => rfl
  case raw => rfl
  case taken => exact place.length_take.symm
  case faults =>
    simp only [readBlockComment, closed]
    split
    · exact .nil
    · exact .cons (Fault.unified_of_place place _ _) .nil

/-! ## Every construct -/

/-- The construct at the front of a text stands at the front of the unified text. -/
theorem Construct.Reads.exists_unified {head : Char} {rest : List Char} {k : Construct}
    (reads : Reads head rest k) :
    ∃ k', Reads head (normalizeBreaks rest) k' ∧ k.Unified (head :: rest) k' := by
  by_cases ends : k.EndsWithRun
  · exact ⟨k, reads.unified_of_endsWithRun ends⟩
  cases reads with
  | string opening => exact ⟨_, .string opening, readString_unified opening rest⟩
  | @lineComment body =>
    rw [normalizeBreaks_cons_of_ne (by decide)]
    exact ⟨_, .lineComment, readLineComment_unified body⟩
  | @blockComment body =>
    rw [normalizeBreaks_cons_of_ne (by decide)]
    exact ⟨_, .blockComment, readBlockComment_unified body⟩
  | symbol => exact absurd (readSymbol_endsWithRun _) ends
  | _ => exact absurd ⟨nofun, nofun, nofun⟩ ends

/-! ## The scan -/

/-- A token, and the same one in the unified text. -/
structure Token.Unified (t t' : Token) : Prop where
  kind : t'.kind = t.kind
  value : t.kind ≠ .string → t'.value = t.value
  raw : t'.raw = t.raw.map unifyBreaks

/-- A diagnostic on a source, and the same one on the unified source. -/
structure Diagnostic.Unified (source : List Char) (d d' : Diagnostic) : Prop where
  kind : d'.kind = d.kind
  char : d'.char = d.char
  start : ∃ i j : Nat, d.span.start = i ∧ d'.span.start = j ∧ SamePlace source i j
  stop : ∃ i j : Nat, d.span.stop = i ∧ d'.span.stop = j ∧ SamePlace source i j

theorem Fault.Unified.diagnostic {front text : List Char} {f f' : Fault}
    (whole : Unbroken front text) (h : f.Unified text f') :
    (f.diagnostic front.length).Unified (front ++ text)
      (f'.diagnostic (normalizeBreaks front).length) where
  kind := h.kind
  char := congrArg Char.toString h.char
  start := ⟨_, _, rfl, rfl, h.start.append whole⟩
  stop := by
    refine ⟨_, _, ?_, ?_, h.stop.append whole⟩
    · rw [← Nat.add_assoc]
      rfl
    · rw [← Nat.add_assoc]
      rfl

namespace Scan

/-- A scan of a source, and that of the unified source. -/
structure Unified (source : List Char) (s s' : Scan) : Prop where
  tokens : List.Forall₂ Token.Unified s.tokens s'.tokens
  diagnostics : List.Forall₂ (Diagnostic.Unified source) s.diagnostics s'.diagnostics

/-- What stands behind the front in the unified text. If a break is cut in two, nothing is left
of its line feed. -/
def unifiedBehind (front behind : List Char) : List Char :=
  (normalizeBreaks (front ++ behind)).drop (normalizeBreaks front).length

theorem unifiedBehind_of_unbroken {front behind : List Char} (whole : Unbroken front behind) :
    unifiedBehind front behind = normalizeBreaks behind := by
  rw [unifiedBehind, normalizeBreaks_append whole, List.drop_left]

theorem unifiedBehind_append {front middle behind : List Char}
    (whole : Unbroken front (middle ++ behind)) :
    unifiedBehind (front ++ middle) behind =
      (normalizeBreaks (middle ++ behind)).drop (normalizeBreaks middle).length := by
  rw [unifiedBehind, normalizeBreaks_append whole.of_append, List.append_assoc,
    normalizeBreaks_append whole, List.length_append, ← List.drop_drop, List.drop_left]

theorem startingAt_unifiedBehind_blank {c : Char} (blank : isBlank c = true)
    (front rest : List Char) :
    startingAt (normalizeBreaks front).length (unifiedBehind front (c :: rest)) =
      startingAt (normalizeBreaks (front ++ [c])).length (unifiedBehind (front ++ [c]) rest) := by
  by_cases whole : Unbroken front (c :: rest)
  · have ahead : (normalizeBreaks (c :: rest)).head? = some (unified c) :=
      head?_normalizeBreaks (c :: rest)
    obtain ⟨behind, ahead⟩ := List.head?_eq_some_iff.mp ahead
    have single : normalizeBreaks [c] = [unified c] := normalizeBreaks_cons (unbroken_at_end [c])
    have blank : isBlank (unified c) = true := by rw [isBlank_unified, blank]
    have cut : Unbroken front ([c] ++ rest) := whole
    rw [unifiedBehind_of_unbroken whole, unifiedBehind_append cut, List.singleton_append, ahead,
      normalizeBreaks_append cut.of_append, single, startingAt_blank blank, List.length_append]
    rfl
  · obtain ⟨ret, feed⟩ := not_not.mp whole
    obtain rfl : c = '\n' := Option.some.inj feed
    have gone : normalizeBreaks (front ++ ['\n']) = normalizeBreaks front := by
      obtain ⟨before, rfl⟩ := List.getLast?_eq_some_iff.mp ret
      have apart (behind : List Char) : Unbroken before ('\r' :: behind) :=
        unbroken_of_head? (by simp) before
      rw [List.append_assoc, List.singleton_append, normalizeBreaks_append (apart _),
        normalizeBreaks_append (apart _)]
      rfl
    rw [unifiedBehind, unifiedBehind, gone, List.append_assoc, List.singleton_append]

theorem startingAt_unified (offset : Nat) (text front : List Char) (length : front.length = offset) :
    (startingAt offset text).Unified (front ++ text)
      (startingAt (normalizeBreaks front).length (unifiedBehind front text)) := by
  revert front
  refine walk (P := fun offset text s => ∀ front : List Char, front.length = offset →
    s.Unified (front ++ text)
      (startingAt (normalizeBreaks front).length (unifiedBehind front text)))
    ?nil ?blank ?stop ?construct offset text
  case nil =>
    intro offset front _
    rw [unifiedBehind_of_unbroken (unbroken_at_end front), normalizeBreaks, startingAt_nil]
    exact ⟨.nil, .nil⟩
  case blank =>
    intro offset c rest s blank ih front length
    rw [startingAt_unifiedBehind_blank blank]
    have ih := ih (front ++ [c]) (by rw [List.length_append, length, List.length_singleton])
    rwa [List.append_assoc, List.singleton_append] at ih
  case stop =>
    intro offset c rest dark nothing front length
    obtain ⟨noReturn, noFeed⟩ := ne_break_of_not_isBlank dark
    have whole : Unbroken front (c :: rest) := unbroken_of_head? (by simpa using noFeed) front
    have still : Construct.atFront? c (normalizeBreaks rest) = none :=
      (Construct.atFront?_eq_none_iff dark).mpr ((Construct.atFront?_eq_none_iff dark).mp nothing)
    have place := (samePlace_zero rest).cons (unbroken_of_ne noReturn rest)
    have fault := Fault.unified_of_place place .unexpectedToken c
    rw [unifiedBehind_of_unbroken whole, normalizeBreaks_cons_of_ne noReturn,
      startingAt_stop dark still, ← length]
    exact ⟨.nil, .cons (fault.diagnostic whole) .nil⟩
  case construct =>
    intro offset c rest k s reads ih front length
    obtain ⟨noReturn, noFeed⟩ := ne_break_of_not_isBlank reads.not_isBlank
    have whole : Unbroken front (c :: rest) := unbroken_of_head? (by simpa using noFeed) front
    obtain ⟨k', reads', unified⟩ := reads.exists_unified
    rw [unifiedBehind_of_unbroken whole, normalizeBreaks_cons_of_ne noReturn,
      startingAt_construct reads', ← normalizeBreaks_cons_of_ne noReturn]
    have parts : (c :: rest).take k.taken ++ (c :: rest).drop k.taken = c :: rest :=
      List.take_append_drop _ _
    rw [← parts] at whole
    have ih := ih (front ++ (c :: rest).take k.taken) (by
      rw [List.length_append, length, List.length_take_of_le reads.fitsIn.taken_le])
    rw [unifiedBehind_append whole, normalizeBreaks_append whole.of_append, List.length_append,
      ← unified.taken, List.append_assoc, parts] at ih
    rw [parts] at whole
    refine ⟨.cons ⟨unified.kind, unified.value, unified.raw⟩ ih.tokens, ?_⟩
    refine List.rel_append ?_ ih.diagnostics
    rw [← length]
    exact List.rel_map (fun _ _ fault => fault.diagnostic whole) unified.faults

end Scan

/-! ## Reports and notes -/

namespace Diagnostic.Unified

variable {source : List Char} {d d' : Diagnostic}

theorem message_eq (h : d.Unified source d') : d'.message = d.message := by
  rw [message, message, h.kind, h.char]

theorem snippet_eq (h : d.Unified source d') (message filename label : String) :
    Snippet.ofSpan message d'.span (normalizeBreaks source) filename label =
      Snippet.ofSpan message d.span source filename label := by
  obtain ⟨i, j, start, start', first⟩ := h.start
  obtain ⟨m, n, stop, stop', last⟩ := h.stop
  simp only [Snippet.ofSpan, start, start', stop, stop', first.positionAt, last.positionAt,
    splitLines_normalizeBreaks]

theorem note_eq (h : d.Unified source d') :
    Editor.Note.ofDiagnostic (normalizeBreaks source) d' = Editor.Note.ofDiagnostic source d := by
  obtain ⟨i, j, start, start', first⟩ := h.start
  obtain ⟨m, n, stop, stop', last⟩ := h.stop
  have legacy : d'.isLegacy = d.isLegacy := congrArg DiagnosticKind.isLegacy h.kind
  simp only [Editor.Note.ofDiagnostic, Editor.placeAt, start, start', stop, stop',
    first.positionAt, last.positionAt, h.message_eq, legacy]

end Diagnostic.Unified

theorem toList_unifyBreaks (text : String) :
    (unifyBreaks text).toList = normalizeBreaks text.toList := String.toList_ofList

theorem Diagnostic.Unified.report_eq {source : String} {d d' : Diagnostic}
    (h : d.Unified source.toList d') (filename : String) :
    d'.report (unifyBreaks source) filename = d.report source filename := by
  rw [report, report, toList_unifyBreaks, h.message_eq, h.kind, h.snippet_eq]

theorem map_eq_map_of_forall₂ {α β γ : Type} {R : α → β → Prop} {f : α → γ} {g : β → γ}
    (same : ∀ a b, R a b → f a = g b) {l : List α} {l' : List β} (h : List.Forall₂ R l l') :
    l.map f = l'.map g :=
  List.forall₂_eq_eq_eq ▸ List.rel_map (P := Eq) same h

namespace Scan

/-- With its line breaks unified, a source has the same tokens, of which only the strings may
differ, by the breaks in them; and the same diagnostics, with the same reports under every name and
the same notes for an editor. -/
theorem ofText_unifyBreaks (source : String) :
    List.Forall₂ Token.Unified (ofText source).tokens (ofText (unifyBreaks source)).tokens ∧
    (ofText source).diagnostics.map (fun d => (d.kind, d.char)) =
      (ofText (unifyBreaks source)).diagnostics.map (fun d => (d.kind, d.char)) ∧
    (∀ filename, (ofText source).diagnostics.map (fun d => d.report source filename) =
      (ofText (unifyBreaks source)).diagnostics.map
        (fun d => d.report (unifyBreaks source) filename)) ∧
    Editor.notes source = Editor.notes (unifyBreaks source) := by
  have unified := startingAt_unified 0 source.toList [] rfl
  have ahead : unifiedBehind [] source.toList = (unifyBreaks source).toList := by
    rw [unifiedBehind_of_unbroken (unbroken_at_start _), toList_unifyBreaks]
  rw [ahead] at unified
  refine ⟨unified.tokens, ?_, fun filename => ?_, ?_⟩
  · refine map_eq_map_of_forall₂ (fun d d' same => ?_) unified.diagnostics
    rw [same.kind, same.char]
  · exact map_eq_map_of_forall₂ (fun d d' same => (same.report_eq filename).symm)
      unified.diagnostics
  · rw [Editor.notes, Editor.notes, toList_unifyBreaks]
    exact map_eq_map_of_forall₂ (fun d d' same => same.note_eq.symm) unified.diagnostics

/-- An offset that moves, and its place, which does not. -/
example : (ofText "//\r\n'a\\\r\nb").diagnostics.map (·.span) = [Span.cover 4 6] ∧
    (ofText (unifyBreaks "//\r\n'a\\\r\nb")).diagnostics.map (·.span) = [Span.cover 3 5] ∧
    Editor.notes "//\r\n'a\\\r\nb" =
      [⟨⟨1, 0⟩, ⟨2, 1⟩, "unterminated string literal", .error, "jslex"⟩] := by
  decide +kernel

end Scan

end ScriptLexer
