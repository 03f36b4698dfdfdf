import ScriptLexer.Lexer
import ScriptLexer.Proofs.Cursor.Agreement
import ScriptLexer.Proofs.Scan.Bounds

/-
  A lexer comes to an end on every source and without a mishap. Each step of the cursor is a step
  of the scan (`Cursor.next_of_dark`), so the cursor reaches the end with the tokens and
  diagnostics of the scan and in no other way (`Cursor.reaches_iff`); the spans of both lie in the
  source and in order (`Lexer.run_total`).
-/

namespace ScriptLexer

/-- The offset up to which a scan has gone over a text that ends at offset `last`. -/
def Scan.consumed (s : Scan) (last : Nat) : Nat :=
  match s.stop with
  | some (offset, _) => offset + 1
  | none => last

namespace Cursor

/-! ## One step -/

theorem skipBlanks_of_blank {c : Cursor} {char : Char} (there : c.peek 0 = some char)
    (blank : isBlank char = true) : c.skipBlanks = c.move.skipBlanks := by
  rw [skipBlanks]
  split
  · next nothing =>
    rw [nothing] at there
    contradiction
  · next char' there' =>
    rw [there', Option.some.injEq] at there
    rw [there, if_pos blank]

theorem skipBlanks_of_dark {c : Cursor} {char : Char} (there : c.peek 0 = some char)
    (dark : isBlank char = false) : c.skipBlanks = c := by
  rw [skipBlanks]
  split
  · rfl
  · next char' there' =>
    rw [there', Option.some.injEq] at there
    rw [there, dark]
    rfl

theorem skipBlanks_of_nothing {c : Cursor} (nothing : c.peek 0 = none) : c.skipBlanks = c := by
  rw [skipBlanks]
  split
  · rfl
  · next char there =>
    rw [nothing] at there
    contradiction

theorem next_of_blank {c : Cursor} {char : Char} (there : c.peek 0 = some char)
    (blank : isBlank char = true) : c.next = c.move.next := by
  unfold next
  rw [skipBlanks_of_blank there blank]

theorem spanOf_cover (start length : Nat) :
    spanOf start (start + length : Nat) = .ok (Span.cover start length) := by
  have ordered : (start : Int) ≤ (start + length : Nat) := by omega
  rw [spanOf, Span.ofBounds, dif_pos ordered]
  rfl

theorem next_of_nothing {c : Cursor} (nothing : c.peek 0 = none) :
    c.next = .ok (none, c.commit) := by
  unfold next
  rw [skipBlanks_of_nothing nothing]
  dsimp only
  rw [nothing]
  dsimp only
  have span : spanOf c.pos c.commit.lastPos = .ok (Span.cover c.pos 0) := spanOf_cover c.pos 0
  rw [span, ok_bind]

/-- A step over a construct, or to a character where none begins. -/
theorem next_of_dark {c : Cursor} {head : Char} {rest : List Char}
    (ahead : c.ahead = head :: rest) (dark : isBlank head = false) :
    c.next = .ok (match Construct.atFront? head rest with
      | some k => (some (k.token c.pos), c.after k)
      | none => (none, c.stopAt head)) := by
  have there : c.peek 0 = some head := by rw [peek_zero, ahead, List.head?_cons]
  unfold next
  rw [skipBlanks_of_dark there dark]
  dsimp only
  rw [there]
  dsimp only
  rw [readMeaning_eq ahead]
  cases Construct.atFront? head rest with
  | none =>
    have span : spanOf c.pos (c.stopAt head).lastPos = .ok (Span.cover c.pos 1) :=
      spanOf_cover c.pos 1
    rw [ok_bind]
    dsimp only
    rw [span, ok_bind]
    rfl
  | some k =>
    have span : spanOf c.pos (c.after k).lastPos = .ok (Span.cover c.pos k.size) :=
      spanOf_cover c.pos k.size
    rw [ok_bind]
    dsimp only
    rw [span, ok_bind]
    rfl

/-! ## A whole run -/

theorem Reaches.of_next_eq {c c' last : Cursor} {tokens : List Token} (same : c.next = c'.next)
    (h : Reaches c' tokens last) : Reaches c tokens last := by
  cases h with
  | done step => exact .done (same.trans step)
  | token step behind => exact .token (same.trans step) behind

/-- There is one way to go on at most. -/
theorem Reaches.unique {c last last' : Cursor} {tokens tokens' : List Token}
    (h : Reaches c tokens last) (h' : Reaches c tokens' last') :
    tokens = tokens' ∧ last = last' := by
  induction h generalizing tokens' with
  | done step =>
    cases h' with
    | done step' =>
      rw [step] at step'
      cases step'
      exact ⟨rfl, rfl⟩
    | token step' _ =>
      rw [step] at step'
      cases step'
  | token step _ ih =>
    cases h' with
    | done step' =>
      rw [step] at step'
      cases step'
    | token step' behind =>
      rw [step] at step'
      cases step'
      obtain ⟨rfl, rfl⟩ := ih behind
      exact ⟨rfl, rfl⟩

theorem ahead_after {c : Cursor} {text : List Char} (k : Construct) (ahead : c.ahead = text) :
    (c.after k).ahead = text.drop k.taken := by
  show c.source.drop (c.pos + k.taken) = _
  rw [← List.drop_drop, ← Cursor.ahead, ahead]

/-- The cursor reaches the end of what can be read, with the tokens and diagnostics of the scan. It
has then gone over the whole text, or up to the character at which the scan stopped and over it. -/
theorem reaches_startingAt (offset : Nat) (text : List Char) :
    ∀ c : Cursor, c.pos = offset → c.ahead = text →
      ∃ last, Reaches c (Scan.startingAt offset text).tokens last ∧
        last.diagnostics = c.diagnostics ++ (Scan.startingAt offset text).diagnostics ∧
        last.pos = (Scan.startingAt offset text).consumed (offset + text.length) := by
  refine Scan.walk (P := fun offset text s => ∀ c : Cursor, c.pos = offset → c.ahead = text →
    ∃ last, Reaches c s.tokens last ∧ last.diagnostics = c.diagnostics ++ s.diagnostics ∧
      last.pos = s.consumed (offset + text.length)) ?nil ?blank ?stop ?construct offset text
  case nil =>
    intro offset c pos ahead
    have nothing : c.peek 0 = none := by rw [peek_zero, ahead, List.head?_nil]
    exact ⟨c.commit, .done (next_of_nothing nothing), (List.append_nil _).symm, pos⟩
  case blank =>
    intro offset char rest s blank ih c pos ahead
    have there : c.peek 0 = some char := by rw [peek_zero, ahead, List.head?_cons]
    obtain ⟨last, reaches, diagnostics, gone⟩ :=
      ih c.move (congrArg (· + 1) pos) (ahead_move ahead)
    refine ⟨last, reaches.of_next_eq (next_of_blank there blank), diagnostics, ?_⟩
    rw [gone, List.length_cons, Nat.add_right_comm, Nat.add_assoc]
  case stop =>
    intro offset char rest dark nothing c pos ahead
    have step := next_of_dark ahead dark
    rw [nothing] at step
    refine ⟨c.stopAt char, .done step, ?_⟩
    rw [← pos]
    exact ⟨rfl, rfl⟩
  case construct =>
    intro offset char rest k s reads ih c pos ahead
    have step := next_of_dark ahead reads.not_isBlank
    rw [Construct.atFront?_eq_some_iff.mpr reads, pos] at step
    obtain ⟨last, reaches, diagnostics, gone⟩ :=
      ih (c.after k) (congrArg (· + k.taken) pos) (ahead_after k ahead)
    have whole : offset + k.taken + ((char :: rest).drop k.taken).length =
        offset + (char :: rest).length := by
      have room := reads.fitsIn.taken_le
      rw [List.length_drop]
      omega
    rw [whole] at gone
    refine ⟨last, .token step reaches, ?_, gone⟩
    rw [diagnostics, ← pos, Scan.cons, ← List.append_assoc]
    rfl

/-- From the beginning of a source there is exactly one run, and it is that of the scan. -/
theorem reaches_iff (source : String) :
    ∃ last, last.diagnostics = (Scan.ofText source).diagnostics ∧ ∀ tokens last',
      Reaches { source := source.toList } tokens last' ↔
        tokens = (Scan.ofText source).tokens ∧ last' = last := by
  obtain ⟨last, reaches, diagnostics, -⟩ :=
    reaches_startingAt 0 source.toList { source := source.toList } rfl rfl
  refine ⟨last, diagnostics, fun tokens last' => ⟨fun other => other.unique reaches, ?_⟩⟩
  rintro ⟨rfl, rfl⟩
  exact reaches

end Cursor

/-- A new lexer gives a result on every source. Going over the source with a cursor, the one way
there is, comes to an end without a mishap. Tokens cover at least one character each, follow one
another and are no more than there are characters; diagnostics lie in the source too. -/
theorem Lexer.run_total (source : String) :
    (Lexer.mk source false).run.1 = .ok (Scan.ofText source) ∧
    (∃ last, last.diagnostics = (Scan.ofText source).diagnostics ∧ ∀ tokens last',
      Cursor.Reaches { source := source.toList } tokens last' ↔
        tokens = (Scan.ofText source).tokens ∧ last' = last) ∧
    (∀ t ∈ (Scan.ofText source).tokens, t.kind ≠ .endOfInput ∧
      0 ≤ t.span.start ∧ t.span.start < t.span.stop ∧ t.span.stop ≤ source.length) ∧
    (Scan.ofText source).tokens.Pairwise (fun t u => t.span.stop ≤ u.span.start) ∧
    (Scan.ofText source).tokens.length ≤ source.length ∧
    ∀ d ∈ (Scan.ofText source).diagnostics,
      0 ≤ d.span.start ∧ d.span.start < d.span.stop ∧ d.span.stop ≤ source.length := by
  have within : (Scan.ofText source).Within 0 source.length := by
    have within := Scan.startingAt_within 0 source.toList
    rw [Nat.zero_add, String.length_toList] at within
    exact within
  refine ⟨rfl, Cursor.reaches_iff source, ?_, within.ordered, within.count_le, within.diagnostic⟩
  exact fun t mem => ⟨within.kind_ne t mem, within.token t mem⟩

/-- On a source that ends in the middle of three constructs. -/
theorem Lexer.run_total_strays :
    (Lexer.mk "1e+ 0x 'a\\" false).run.1 = .ok (Scan.ofText "1e+ 0x 'a\\") ∧
      ∀ d ∈ (Scan.ofText "1e+ 0x 'a\\").diagnostics, 0 ≤ d.span.start ∧
        d.span.start < d.span.stop ∧ d.span.stop ≤ 10 := by
  have total := Lexer.run_total "1e+ 0x 'a\\"
  exact ⟨total.1, total.2.2.2.2.2⟩

end ScriptLexer
