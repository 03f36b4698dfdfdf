import ScriptLexer.Proofs.Grammar.Acceptance
import ScriptLexer.Proofs.Scan.Placed
import ScriptLexer.Proofs.Token.Content

/-
  Words among strays. A word takes the whole stretch up to the next blank. What belongs to an
  identifier makes up its text, wherever it stands, and all else is reported, in order; the token
  ends with the last character that belongs (`Scan.ofText_word`). What the word is follows from
  the text that is left, and this text is a source of the same word (`Scan.ofText_of_word`).
-/

namespace ScriptLexer

open Construct (Reads)

/-- Only at the start of an identifier a word is read. -/
theorem Construct.Reads.word_of_kind {head : Char} {rest : List Char} {k : Construct}
    (reads : Reads head rest k) (word : k.kind = .word) :
    isIdentStart head = true ∧ k = readWord head rest := by
  cases reads with
  | word start => exact ⟨start, rfl⟩
  | @symbol _ _ s _ _ => exact absurd word s.kind_ne.2.2.1
  | _ => exact TokenKind.noConfusion word

/-- The marks of a word are those of its stretch. -/
theorem wordMarks_eq {head : Char} (start : isIdentStart head = true) (rest : List Char) :
    wordMarks head rest = (run (head :: rest)).map wordMark := by
  have first : wordMark head = .keep head := if_pos (isIdentPart_of_isIdentStart start)
  rw [run_cons (not_isBlank_of_isIdentStart start), List.map_cons, first, wordMarks]

namespace Scan

/-- The text of a word is a source that is this word alone. -/
theorem ofText_of_word {head : Char} {tail : List Char} (start : isIdentStart head = true)
    (part : ∀ c ∈ tail, isIdentPart c = true) :
    ofText (String.ofList (head :: tail)) = ⟨[⟨.word, Span.cover 0 (head :: tail).length,
      .word (Word.ofText (String.ofList (head :: tail))), none⟩], [], none⟩ :=
  ofText_of_lexeme (.word start part atBoundary_nil)

/-- How a scan reads a word that begins at `start`, in a stretch that goes up to the next blank. -/
structure ReadsWord (s : Scan) (t : Token) (start : Nat) (stretch : List Char) : Prop where
  value : ∃ w : Word, t.value = .word w ∧
    w.text = String.ofList (stretch.filter isIdentPart) ∧ w.Classified ∧
    ofText w.text = ⟨[⟨.word, Span.cover 0 w.text.length, .word w, none⟩], [], none⟩
  stop : t.span.stop =
    ((start + (stretch.rdropWhile fun c => !isIdentPart c).length : Nat) : Int)
  strays : (s.diagnosticsIn start stretch.length).filter (·.kind = .unexpectedToken) =
    Mark.strayDiagnostics isIdentPart (fun _ => .unexpectedToken) start stretch
  next : ∀ before after, s.tokens = before ++ t :: after →
    ∀ u ∈ after, ((start + stretch.length : Nat) : Int) ≤ u.span.start

theorem StandsAt.readsWord {source : String} {start : Nat} {head : Char} {rest : List Char}
    (first : isIdentStart head = true)
    (h : (ofText source).StandsAt start head rest (readWord head rest)) :
    (ofText source).ReadsWord ((readWord head rest).token start) start (run (head :: rest)) := by
  have dark := not_isBlank_of_isIdentStart first
  have marks := wordMarks_eq first rest
  have taken : (readWord head rest).taken = (run (head :: rest)).length := by
    show (wordMarks head rest).length = _
    rw [marks, List.length_map]
  constructor
  case value =>
    refine ⟨Word.ofText (String.ofList (Mark.text (wordMarks head rest))), rfl, ?_,
      Word.ofText_classified _, ?_⟩
    · rw [Word.text_ofText, marks, wordMark_sortsBy.text_map]
    · rw [Word.text_ofText, marks, wordMark_sortsBy.text_map, run_cons dark,
        List.filter_cons_of_pos (isIdentPart_of_isIdentStart first), String.length_ofList]
      exact ofText_of_word first fun c mem => (List.mem_filter.mp mem).2
  case stop =>
    rw [← wordMark_sortsBy.extent_map, ← marks]
    rfl
  case strays =>
    have own : (readWord head rest).diagnostics start =
        Mark.strayDiagnostics isIdentPart (fun _ => .unexpectedToken) start
          (run (head :: rest)) := by
      show (Mark.faults 0 (wordMarks head rest)).map _ = _
      rw [marks, wordMark_sortsBy.faults_map, Nat.add_zero]
    have contained := (readWord_isRow rest dark).contained (by simp)
    -- what a zero in front may have reported is of another kind
    obtain ⟨shared, whole, others⟩ := h.diagnosticsIn contained
    rw [← taken, whole, List.filter_append, own, List.filter_eq_nil_iff.mpr, List.nil_append,
      List.filter_eq_self.mpr]
    · intro d mem
      obtain ⟨_, _, rfl⟩ := List.mem_map.mp mem
      rfl
    · intro d mem same
      obtain ⟨_, _, left⟩ := (others d mem).1
      rw [left.report] at same
      contradiction
  case next =>
    intro before after tokens
    rw [← taken]
    exact h.next tokens

/-- A word takes the stretch from where it begins to the next blank. The characters that belong to
an identifier make up its text, whatever stands between them, and the token ends with the last;
each other character is reported once, in their order, and the next token begins behind the
stretch. What the word is follows from its text, and this text by itself is read as the same
word. -/
theorem ofText_word {source : String} {t : Token} (mem : t ∈ (ofText source).tokens)
    (word : t.kind = .word) : ∃ start : Nat, t.span.start = start ∧
      (ofText source).ReadsWord t start (run (source.toList.drop start)) := by
  obtain ⟨start, head, rest, k, ahead, rfl, stands⟩ := ofText_standsAt mem
  obtain ⟨first, rfl⟩ := stands.reads.word_of_kind word
  refine ⟨start, rfl, ?_⟩
  rw [ahead]
  exact stands.readsWord first

/-- A keyword with strays in and behind it, and a zero in front. -/
theorem ofText_word_repaired :
    (ofText "0i#f@ y").ReadsWord
      ⟨.word, Span.cover 1 3, .word ⟨.keyword, "if", some .kwIf⟩, none⟩ 1 "i#f@".toList := by
  obtain ⟨start, begins, reads⟩ := @ofText_word "0i#f@ y"
    ⟨.word, Span.cover 1 3, .word ⟨.keyword, "if", some .kwIf⟩, none⟩ (by decide +kernel) rfl
  obtain rfl : 1 = start := Int.ofNat.inj begins
  exact reads

end Scan

end ScriptLexer
