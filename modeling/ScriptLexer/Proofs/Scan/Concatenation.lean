import ScriptLexer.Proofs.Scan.Seam
import ScriptLexer.Proofs.Scan.Walk

/-
  Texts put one behind the other with blanks between them. If the scan of the first text gets to
  its end and leaves nothing open there, the scan of the whole is that of the first text followed
  by that of the second, which only stands further on (`Scan.startingAt_append`,
  `Scan.ofText_append_blank`).
-/

namespace ScriptLexer.Scan

open Construct (Reads)

/-- The first scan and then the second. -/
def followedBy (s t : Scan) : Scan :=
  ⟨s.tokens ++ t.tokens, s.diagnostics ++ t.diagnostics, t.stop⟩

theorem cons_followedBy (k : Construct) (offset : Nat) (s t : Scan) :
    (cons k offset s).followedBy t = cons k offset (s.followedBy t) := by
  simp only [cons, followedBy, List.cons_append, List.append_assoc]

/-- The last token is a line comment that goes up to offset `last`, where the text ends, without
a line terminator. -/
def LeavesLineOpen (s : Scan) (last : Nat) (text : List Char) : Prop :=
  ∃ t, s.tokens.getLast? = some t ∧ t.kind = .lineComment ∧ t.span.stop = last ∧
    ∃ c, text.getLast? = some c ∧ isLineTerminator c = false

/-- The scan gets to the end of the text and leaves no string and no comment open there. -/
structure Settled (s : Scan) (last : Nat) (text : List Char) : Prop where
  stop : s.stop = none
  string : ∀ d ∈ s.diagnostics, d.kind ≠ .unterminatedString
  comment : ∀ d ∈ s.diagnostics, d.kind ≠ .unterminatedComment
  line : ¬s.LeavesLineOpen last text

theorem Settled.behind_blank {s : Scan} {last : Nat} {c : Char} {rest : List Char}
    (h : s.Settled last (c :: rest)) : s.Settled last rest where
  stop := h.stop
  string := h.string
  comment := h.comment
  line := by
    rintro ⟨t, final, kind, stop, d, ends, nonTerminator⟩
    refine h.line ⟨t, final, kind, stop, d, ?_, nonTerminator⟩
    rw [List.getLast?_cons, ends]
    rfl

theorem Settled.behind {s : Scan} {k : Construct} {offset last : Nat} {text : List Char}
    (h : (cons k offset s).Settled last text) : s.Settled last (text.drop k.taken) where
  stop := h.stop
  string d mem := h.string d (List.mem_append_right _ mem)
  comment d mem := h.comment d (List.mem_append_right _ mem)
  line := by
    rintro ⟨t, final, kind, stop, d, ends, nonTerminator⟩
    refine h.line ⟨t, ?_, kind, stop, d, ?_, nonTerminator⟩
    · rw [cons, List.getLast?_cons, final]
      rfl
    · rw [List.getLast?_drop] at ends
      split at ends
      · contradiction
      · exact ends

theorem leavesLineOpen_of_reads {offset : Nat} {body : List Char}
    (none : ∀ c ∈ body, isLineTerminator c = false) :
    LeavesLineOpen (cons (readLineComment body) offset {}) (offset + (body.length + 2))
      ('/' :: '/' :: body) := by
  refine ⟨_, rfl, rfl, ?_, ?_⟩
  · show (offset : Int) + (2 + lineCommentLength body : Nat) = _
    rw [lineCommentLength_eq none]
    omega
  · have all : ∀ c ∈ '/' :: '/' :: body, isLineTerminator c = false := by
      rw [List.forall_mem_cons, List.forall_mem_cons]
      exact ⟨by decide, by decide, none⟩
    exact ⟨_, List.getLast?_eq_some_getLast (List.cons_ne_nil _ _), all _ (List.getLast_mem _)⟩

/-- What a settled scan reads first has come to its own end. -/
theorem Settled.closed {offset : Nat} {c : Char} {rest : List Char} {k : Construct}
    (reads : Reads c rest k)
    (h : (cons k offset (startingAt (offset + k.taken) ((c :: rest).drop k.taken))).Settled
      (offset + (c :: rest).length) (c :: rest)) : k.Closed rest where
  string f mem := h.string (f.diagnostic offset)
    (List.mem_append_left _ (List.mem_map_of_mem mem))
  comment f mem := h.comment (f.diagnostic offset)
    (List.mem_append_left _ (List.mem_map_of_mem mem))
  line := by
    intro kind
    cases reads with
    | @lineComment body =>
      by_contra open_
      have none : ∀ c ∈ body, isLineTerminator c = false := by
        intro c mem
        rw [← Bool.not_eq_true]
        exact fun ends => open_ ⟨c, List.mem_cons_of_mem _ mem, ends⟩
      have nothing : ('/' :: '/' :: body).drop (readLineComment body).taken = [] := by
        refine List.drop_eq_nil_of_le ?_
        show body.length + 2 ≤ 2 + lineCommentLength body
        rw [lineCommentLength_eq none]
        exact Nat.le_of_eq (Nat.add_comm _ _)
      rw [nothing, startingAt_nil] at h
      exact h.line (leavesLineOpen_of_reads none)
    | @symbol _ _ s _ _ => cases s <;> contradiction
    | _ => contradiction

theorem startingAt_append (offset : Nat) (text : List Char)
    (settled : (startingAt offset text).Settled (offset + text.length) text)
    {more : List Char} (boundary : AtBoundary more) :
    startingAt offset (text ++ more) =
      (startingAt offset text).followedBy (startingAt (offset + text.length) more) := by
  induction offset, text using startingAt.induct with
  | case1 offset =>
    rw [startingAt_nil, List.nil_append]
    rfl
  | case2 offset c rest blank ih =>
    have last : offset + (c :: rest).length = offset + 1 + rest.length := by
      rw [List.length_cons]
      omega
    rw [startingAt_blank blank, last] at settled
    rw [List.cons_append, startingAt_blank blank, startingAt_blank blank,
      ih settled.behind_blank, last]
  | case3 offset c rest dark nothing =>
    rw [startingAt_stop (Bool.not_eq_true _ ▸ dark) nothing] at settled
    exact absurd settled.stop (Option.some_ne_none _)
  | case4 offset c rest dark k found ih =>
    have reads := Construct.atFront?_eq_some_iff.mp found
    have room := reads.fitsIn.taken_le
    have last : offset + (c :: rest).length =
        offset + k.taken + ((c :: rest).drop k.taken).length := by
      rw [List.length_drop]
      omega
    rw [← drop_taken k c rest] at ih
    rw [startingAt_construct reads] at settled
    have whole := reads.append boundary (Settled.closed reads settled)
    rw [List.cons_append, startingAt_construct whole, startingAt_construct reads,
      cons_followedBy, last, ← List.cons_append, List.drop_append_of_le_length room]
    rw [last] at settled
    rw [ih settled.behind]

/-- Blanks in front only move the scan on. -/
theorem startingAt_blanks (offset : Nat) {gap : List Char} (text : List Char)
    (blank : ∀ c ∈ gap, isBlank c = true) :
    startingAt offset (gap ++ text) = startingAt (offset + gap.length) text := by
  induction gap generalizing offset with
  | nil => rfl
  | cons c gap ih =>
    rw [List.forall_mem_cons] at blank
    rw [List.cons_append, startingAt_blank blank.1, ih (offset + 1) blank.2, List.length_cons]
    congr 1
    omega

/-- Two sources with blanks between them: the tokens and diagnostics of the first and then those
of the second, further on by the length of what stands in front. -/
theorem ofText_append_blank (a w b : String) (gap : w ≠ "")
    (blank : ∀ c ∈ w.toList, isBlank c = true) (ends : (ofText a).stop = none)
    (closed : ∀ d ∈ (ofText a).diagnostics,
      d.kind ≠ .unterminatedString ∧ d.kind ≠ .unterminatedComment)
    (line : ¬(ofText a).LeavesLineOpen a.length a.toList) :
    (ofText (a ++ w ++ b)).tokens =
        (ofText a).tokens ++ (ofText b).tokens.map (·.shift (a.length + w.length)) ∧
      (ofText (a ++ w ++ b)).diagnostics =
        (ofText a).diagnostics ++
          (ofText b).diagnostics.map (·.shift (a.length + w.length)) := by
  have settled : (ofText a).Settled (0 + a.toList.length) a.toList := by
    rw [Nat.zero_add, String.length_toList]
    exact ⟨ends, fun d mem => (closed d mem).1, fun d mem => (closed d mem).2, line⟩
  have boundary : AtBoundary (w.toList ++ b.toList) := by
    cases characters : w.toList with
    | nil => exact absurd (String.toList_eq_nil_iff.mp characters) gap
    | cons c rest =>
      rw [List.cons_append, atBoundary_cons]
      exact blank c (characters ▸ List.mem_cons_self)
  have whole : ofText (a ++ w ++ b) =
      (ofText a).followedBy ((ofText b).shift (a.length + w.length)) := by
    rw [ofText, String.toList_append, String.toList_append, List.append_assoc,
      startingAt_append 0 a.toList settled boundary, startingAt_blanks _ _ blank, ofText, ofText,
      startingAt_shift, String.length_toList, String.length_toList, Nat.zero_add, Nat.zero_add]
  rw [whole]
  exact ⟨rfl, rfl⟩

/-- The first source ends in a zero with a stray behind it, the second begins with an operator. -/
theorem ofText_append_blank_strays :
    (ofText "x /**/ 08e+ 0.").stop = none ∧
    (∀ d ∈ (ofText "x /**/ 08e+ 0.").diagnostics,
      d.kind ≠ .unterminatedString ∧ d.kind ≠ .unterminatedComment) ∧
    (ofText ("x /**/ 08e+ 0." ++ "\t " ++ "=> 'y")).tokens =
      (ofText "x /**/ 08e+ 0.").tokens ++ (ofText "=> 'y").tokens.map (·.shift 16) := by
  have blank : ∀ c ∈ "\t ".toList, isBlank c = true := List.all_eq_true.mp (by decide)
  have line : (ofText "x /**/ 08e+ 0.").tokens.getLast?.map (·.kind) ≠ some .lineComment := by
    decide +kernel
  refine ⟨by decide +kernel, by decide +kernel, ?_⟩
  refine (ofText_append_blank "x /**/ 08e+ 0." "\t " "=> 'y" (by decide) blank
    (by decide +kernel) (by decide +kernel) ?_).1
  rintro ⟨t, final, kind, -⟩
  rw [final, Option.map_some, kind] at line
  exact line rfl

end ScriptLexer.Scan
