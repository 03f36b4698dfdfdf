import ScriptLexer.Proofs.Grammar.Lexeme
import ScriptLexer.Proofs.Scan.Walk

/-
  Acceptance: which sources have no diagnostic, and what their tokens are. A construct without a
  fault spells a lexeme of the grammar (`Construct.Reads.exists_lexeme`), each lexeme is read as
  such (`Lexeme.exists_reads`), and by induction along the scan a source without a diagnostic is a
  row of blanks and lexemes (`Scan.ofText_faultless_iff`).
-/

namespace ScriptLexer

open Construct (Reads)

/-! ## What is read without a fault is a lexeme -/

theorem exists_decimal {head next : Char} {rest : List Char} (digit : head.isDigit = true)
    (goes : continuesDecimal next = true)
    (start : head ≠ '0' ∨ ∃ d more, next = '.' ∧ rest = d :: more ∧ d.isDigit = true)
    (faultless : ∀ m ∈ decimalRun head (next :: rest), m.fault = none) :
    DecimalLexeme (head :: run (next :: rest)) := by
  obtain ⟨numeral, last⟩ := (decimalRun_faultless_iff digit goes).mp faultless
  rw [run_cons (not_isBlank_of_continues goes)] at numeral last ⊢
  refine .whole numeral (Nat.le_add_left _ _) last ?_
  by_cases zero : head = '0'
  · rcases start with nonzero | ⟨d, more, rfl, rfl, behind⟩
    · contradiction
    · rw [zero, run_cons (not_isBlank_of_isDigit behind)]
      exact Or.inr ⟨d, run more, rfl, behind⟩
  · exact Or.inl ⟨head, _, rfl, digit, zero⟩

theorem exists_lexeme_decimal {head : Char} {rest : List Char} (digit : head.isDigit = true)
    (nonzero : head ≠ '0') (faultless : (readDecimal head rest).faults = []) :
    ∃ text follow kind value raw, head :: rest = text ++ follow ∧
      (readDecimal head rest).Spells text kind value raw ∧ Lexeme text follow kind value raw := by
  have dark := not_isBlank_of_isDigit digit
  rw [Construct.readDecimal_faultless_iff dark] at faultless
  by_cases ends : ∀ c ∈ rest.head?, ¬continuesDecimal c = true
  · refine ⟨[head], rest, _, _, _, rfl, Construct.readDecimal_spells_digit digit ends, ?_⟩
    refine .digit digit nonzero fun c mem => ?_
    rw [← continuesDecimal_iff]
    exact ends c mem
  · push Not at ends
    obtain ⟨next, mem, goes⟩ := ends
    obtain ⟨more, rfl⟩ := List.head?_eq_some_iff.mp mem
    obtain ⟨follow, e, boundary⟩ := exists_run (next :: more)
    refine ⟨head :: run (next :: more), follow, _, _, _, by rw [List.cons_append, ← e],
      Construct.readDecimal_spells_run dark goes faultless, ?_⟩
    exact .decimal (exists_decimal digit goes (Or.inl nonzero) faultless) boundary

theorem exists_lexeme_string {quote : Char} {rest : List Char}
    (opening : quote = '"' ∨ quote = '\'') (faultless : (readString quote rest).faults = []) :
    ∃ text follow kind value raw, quote :: rest = text ++ follow ∧
      (readString quote rest).Spells text kind value raw ∧ Lexeme text follow kind value raw := by
  rw [Construct.readString_faultless_iff] at faultless
  obtain ⟨body, value, follow, rfl, inner⟩ := exists_stringText faultless
  have unescaped := not_backslash_of_quote opening
  refine ⟨quote :: (body ++ [quote]), follow, _, _, _, ?_,
    Construct.readString_spells unescaped inner follow, .string opening inner⟩
  rw [List.cons_append, List.append_assoc, List.singleton_append]

theorem exists_lexeme_lineComment (body : List Char) :
    ∃ text follow kind value raw, '/' :: '/' :: body = text ++ follow ∧
      (readLineComment body).Spells text kind value raw ∧ Lexeme text follow kind value raw := by
  rcases endsOrNot body with inner | ⟨inside, terminator, follow, rfl, inner, ends⟩
  · refine ⟨'/' :: '/' :: body, [], _, _, _, (List.append_nil _).symm,
      Construct.readLineComment_spells (lineCommentLength_eq inner), .lastLineComment inner⟩
  · have length : lineCommentLength (inside ++ terminator :: follow) =
        (inside ++ [terminator]).length := by
      rw [lineCommentLength_ends inner ends, List.length_append, List.length_singleton]
    refine ⟨'/' :: '/' :: (inside ++ [terminator]), follow, _, _, _, ?_,
      Construct.readLineComment_spells length, .lineComment inner ends⟩
    rw [List.cons_append, List.cons_append, List.append_assoc, List.singleton_append]

theorem exists_lexeme_blockComment {body : List Char}
    (faultless : (readBlockComment body).faults = []) :
    ∃ text follow kind value raw, '/' :: '*' :: body = text ++ follow ∧
      (readBlockComment body).Spells text kind value raw ∧
        Lexeme text follow kind value raw := by
  rw [Construct.readBlockComment_faultless_iff] at faultless
  obtain ⟨inside, follow, rfl, inner⟩ := exists_unclosed faultless
  refine ⟨'/' :: '*' :: (inside ++ ['*', '/']), follow, _, _, _, ?_,
    Construct.readBlockComment_spells inner follow, .blockComment inner⟩
  rw [List.cons_append, List.cons_append, List.append_assoc]
  rfl

/-- A construct without a fault spells a lexeme at the front of the text. -/
theorem Construct.Reads.exists_lexeme {head : Char} {rest : List Char} {k : Construct}
    (reads : Reads head rest k) (faultless : k.faults = []) :
    ∃ text follow kind value raw, head :: rest = text ++ follow ∧
      k.Spells text kind value raw ∧ Lexeme text follow kind value raw := by
  have dark := reads.not_isBlank
  cases reads with
  | string opening => exact exists_lexeme_string opening faultless
  | decimal digit nonzero => exact exists_lexeme_decimal digit nonzero faultless
  | @radix letter rest radix named =>
    obtain ⟨some, all⟩ := readRadix_faultless_iff.mp faultless
    obtain ⟨follow, e, boundary⟩ := exists_run rest
    refine ⟨'0' :: letter :: run rest, follow, _, _, _, ?_, readRadix_spells letter some all,
      .radix named some all boundary⟩
    rw [List.cons_append, List.cons_append, ← e]
  | @legacyDecimal head rest beyond =>
    have dark := not_isBlank_of_beyond_octal beyond
    exact absurd faultless (not_faultless_of_own (readLegacyDecimal_isRow rest dark))
  | legacyOctal octal =>
    exact absurd faultless (not_faultless_of_own (readLegacyOctal_isRow _))
  | @zeroPoint next rest digit =>
    rw [readDecimal_faultless_iff dark] at faultless
    obtain ⟨follow, e, boundary⟩ := exists_run ('.' :: next :: rest)
    refine ⟨'0' :: run ('.' :: next :: rest), follow, _, _, _, by rw [List.cons_append, ← e],
      readDecimal_spells_run dark rfl faultless, .decimal ?_ boundary⟩
    exact exists_decimal rfl rfl (Or.inr ⟨next, rest, rfl, rfl, digit⟩) faultless
  | zero boundary =>
    exact ⟨['0'], rest, _, _, _, rfl, loneZero_spells, .zero boundary⟩
  | zeroBefore => exact absurd faultless (List.cons_ne_nil _ _)
  | word start =>
    have part := (readWord_faultless_iff start).mp faultless
    obtain ⟨follow, e, boundary⟩ := exists_run rest
    exact ⟨head :: run rest, follow, _, _, _, by rw [List.cons_append, ← e],
      readWord_spells start part, .word start part boundary⟩
  | @pointDecimal next rest digit =>
    have goes : continuesDecimal next = true := continuesDecimal_iff.mpr (Or.inl digit)
    rw [readDecimal_faultless_iff dark] at faultless
    obtain ⟨follow, e, boundary⟩ := exists_run (next :: rest)
    refine ⟨'.' :: run (next :: rest), follow, _, _, _, by rw [List.cons_append, ← e],
      readDecimal_spells_run dark goes faultless, .decimal ?_ boundary⟩
    exact .point ((decimalRun_point_faultless_iff digit).mp faultless)
  | @lineComment body => exact exists_lexeme_lineComment body
  | blockComment => exact exists_lexeme_blockComment faultless
  | @symbol _ _ s longest shorter =>
    obtain ⟨follow, e⟩ := longest.fits
    exact ⟨s.text.toList, follow, _, _, _, e.symm, readSymbol_spells s,
      .symbol (e ▸ longest) (e ▸ shorter)⟩

/-! ## Each lexeme is read as such -/

theorem run_eq_of_dark {head next : Char} {rest follow : List Char}
    (dark : ∀ c ∈ head :: next :: rest, isBlank c = false) (boundary : AtBoundary follow) :
    run (next :: (rest ++ follow)) = next :: rest :=
  run_eq_of_boundary (List.forall_mem_cons.mp dark).2 boundary

/-- A decimal with a boundary behind it. -/
theorem readDecimal_spells_append {head next : Char} {rest follow : List Char}
    (dark : ∀ c ∈ head :: next :: rest, isBlank c = false) (goes : continuesDecimal next = true)
    (boundary : AtBoundary follow)
    (faultless : ∀ m ∈ decimalRun head (next :: (rest ++ follow)), m.fault = none) :
    (readDecimal head (next :: (rest ++ follow))).Spells (head :: next :: rest) .number
      (.number (decimalValue (head :: next :: rest))) none := by
  have head_dark := (List.forall_mem_cons.mp dark).1
  have spells := Construct.readDecimal_spells_run head_dark goes faultless
  rw [run_eq_of_dark dark boundary] at spells
  exact spells

theorem exists_reads_whole {head next : Char} {rest follow : List Char}
    (numeral : IsNumeral (head :: next :: rest))
    (last : (head :: next :: rest).getLast? ≠ some '.') (digit : head.isDigit = true)
    (start : head ≠ '0' ∨ ∃ d more, next = '.' ∧ rest = d :: more ∧ d.isDigit = true)
    (boundary : AtBoundary follow) :
    ∃ k, Reads head (next :: rest ++ follow) k ∧
      k.Spells (head :: next :: rest) .number (.number (decimalValue (head :: next :: rest)))
        none := by
  have dark := numeral.not_isBlank
  have goes := numeral.continues digit last
  have faultless : ∀ m ∈ decimalRun head (next :: (rest ++ follow)), m.fault = none := by
    rw [decimalRun_faultless_iff digit goes, run_eq_of_dark dark boundary]
    exact ⟨numeral, last⟩
  have spells := readDecimal_spells_append dark goes boundary faultless
  refine ⟨readDecimal head (next :: (rest ++ follow)), ?_, spells⟩
  by_cases zero : head = '0'
  · rcases start with nonzero | ⟨d, more, rfl, rfl, behind⟩
    · contradiction
    · subst zero
      exact .zeroPoint behind
  · exact .decimal digit zero

theorem exists_reads_point {next : Char} {rest follow : List Char}
    (numeral : IsPointNumeral ('.' :: next :: rest)) (digit : next.isDigit = true)
    (boundary : AtBoundary follow) :
    ∃ k, Reads '.' (next :: rest ++ follow) k ∧
      k.Spells ('.' :: next :: rest) .number (.number (decimalValue ('.' :: next :: rest)))
        none := by
  have dark := numeral.not_isBlank
  have goes : continuesDecimal next = true := continuesDecimal_iff.mpr (Or.inl digit)
  have faultless : ∀ m ∈ decimalRun '.' (next :: (rest ++ follow)), m.fault = none := by
    rw [decimalRun_point_faultless_iff digit, run_eq_of_dark dark boundary]
    exact numeral
  exact ⟨readDecimal '.' (next :: (rest ++ follow)), .pointDecimal digit,
    readDecimal_spells_append dark goes boundary faultless⟩

theorem exists_reads_decimal {text follow : List Char} (decimal : DecimalLexeme text)
    (boundary : AtBoundary follow) :
    ∃ head tail k, text = head :: tail ∧ Reads head (tail ++ follow) k ∧
      k.Spells text .number (.number (decimalValue text)) none := by
  cases decimal with
  | whole numeral long last start =>
    rcases start with ⟨head, rest, rfl, digit, nonzero⟩ | ⟨d, more, rfl, behind⟩
    · have some : rest ≠ [] := by
        rintro rfl
        exact absurd long (Nat.not_succ_le_self 1)
      obtain ⟨next, rest, rfl⟩ := List.exists_cons_of_ne_nil some
      obtain ⟨k, reads, spells⟩ :=
        exists_reads_whole numeral last digit (Or.inl nonzero) boundary
      exact ⟨head, next :: rest, k, rfl, reads, spells⟩
    · obtain ⟨k, reads, spells⟩ :=
        exists_reads_whole numeral last rfl (Or.inr ⟨d, more, rfl, rfl, behind⟩) boundary
      exact ⟨'0', '.' :: d :: more, k, rfl, reads, spells⟩
  | point numeral =>
    obtain ⟨next, rest, rfl, digit⟩ := numeral.exists_digit
    obtain ⟨k, reads, spells⟩ := exists_reads_point numeral digit boundary
    exact ⟨'.', next :: rest, k, rfl, reads, spells⟩

/-- A lexeme with what may follow it is read as such. -/
theorem Lexeme.exists_reads {text follow : List Char} {kind : TokenKind} {value : TokenValue}
    {raw : Option String} (lexeme : Lexeme text follow kind value raw) :
    ∃ head tail k, text = head :: tail ∧ Reads head (tail ++ follow) k ∧
      k.Spells text kind value raw := by
  cases lexeme with
  | @word head tail _ start part boundary =>
    have whole : run (tail ++ follow) = tail :=
      run_eq_of_boundary (fun c mem => not_isBlank_of_isIdentPart (part c mem)) boundary
    have part : ∀ c ∈ run (tail ++ follow), isIdentPart c = true := by rwa [whole]
    have spells := Construct.readWord_spells start part
    rw [whole] at spells
    exact ⟨head, tail, _, rfl, .word start, spells⟩
  | zero boundary => exact ⟨'0', [], _, rfl, .zero boundary, Construct.loneZero_spells⟩
  | @radix letter digits _ radix named some all boundary =>
    have whole : run (digits ++ follow) = digits :=
      run_eq_of_boundary (fun c mem => radix.not_isBlank_of_isDigit (all c mem)) boundary
    have some : run (digits ++ follow) ≠ [] := by rwa [whole]
    have all : ∀ c ∈ run (digits ++ follow), radix.isDigit c = true := by rwa [whole]
    have spells := Construct.readRadix_spells letter some all
    rw [whole] at spells
    exact ⟨'0', letter :: digits, _, rfl, .radix named, spells⟩
  | @digit head _ digit nonzero ends =>
    refine ⟨head, [], _, rfl, .decimal digit nonzero, ?_⟩
    refine Construct.readDecimal_spells_digit digit fun c mem => ?_
    rw [continuesDecimal_iff]
    exact ends c mem
  | decimal decimal boundary => exact exists_reads_decimal decimal boundary
  | @string quote body _ _ opening inner =>
    have unescaped := not_backslash_of_quote opening
    refine ⟨quote, body ++ [quote], _, rfl, ?_,
      Construct.readString_spells unescaped inner follow⟩
    rw [List.append_assoc, List.singleton_append]
    exact .string opening
  | @lineComment body _ terminator inner ends =>
    have length : lineCommentLength (body ++ [terminator] ++ follow) =
        (body ++ [terminator]).length := by
      rw [List.append_assoc, List.singleton_append, lineCommentLength_ends inner ends,
        List.length_append, List.length_singleton]
    exact ⟨'/', '/' :: (body ++ [terminator]), _, rfl, .lineComment,
      Construct.readLineComment_spells length⟩
  | @lastLineComment body inner =>
    have length : lineCommentLength (body ++ []) = body.length := by
      rw [List.append_nil, lineCommentLength_eq inner]
    exact ⟨'/', '/' :: body, _, rfl, .lineComment, Construct.readLineComment_spells length⟩
  | @blockComment body _ inner =>
    have ahead : body ++ ['*', '/'] ++ follow = body ++ '*' :: '/' :: follow :=
      List.append_assoc _ _ _
    refine ⟨'/', '*' :: (body ++ ['*', '/']), _, rfl, ?_,
      Construct.readBlockComment_spells inner follow⟩
    rw [List.cons_append, ahead]
    exact .blockComment
  | @symbol s _ longest shorter =>
    obtain ⟨head, tail, e⟩ := List.exists_cons_of_ne_nil s.toList_text_ne_nil
    rw [e, List.cons_append] at longest shorter
    exact ⟨head, tail, _, e, .symbol longest shorter, Construct.readSymbol_spells s⟩

/-! ## Sources without a diagnostic -/

/-- The text, of which the first character stands at `offset`, is a row of blanks and lexemes, and
these are the tokens of the lexemes. -/
inductive Splits : Nat → List Char → List Token → Prop
  | nil {offset : Nat} : Splits offset [] []
  | blank {offset : Nat} {c : Char} {rest : List Char} {tokens : List Token}
    (blank : isBlank c = true) (behind : Splits (offset + 1) rest tokens) :
    Splits offset (c :: rest) tokens
  | lexeme {offset : Nat} {text follow : List Char} {kind : TokenKind} {value : TokenValue}
    {raw : Option String} {tokens : List Token} (lexeme : Lexeme text follow kind value raw)
    (behind : Splits (offset + text.length) follow tokens) :
    Splits offset (text ++ follow) (⟨kind, Span.cover offset text.length, value, raw⟩ :: tokens)

namespace Scan

/-- Without a diagnostic, the text splits into blanks and lexemes. -/
theorem startingAt_splits (offset : Nat) (text : List Char) :
    (startingAt offset text).diagnostics = [] →
      Splits offset text (startingAt offset text).tokens := by
  refine walk (P := fun offset text s => s.diagnostics = [] → Splits offset text s.tokens)
    ?nil ?blank ?stop ?construct offset text
  case nil =>
    intro offset _
    exact .nil
  case blank =>
    intro offset c rest s blank ih clean
    exact .blank blank (ih clean)
  case stop =>
    intro offset c rest _ _ clean
    exact absurd clean (List.cons_ne_nil _ _)
  case construct =>
    intro offset c rest k s reads ih clean
    obtain ⟨own, behind⟩ := List.append_eq_nil_iff.mp clean
    have faultless : k.faults = [] := List.map_eq_nil_iff.mp own
    obtain ⟨text, follow, kind, value, raw, e, spells, lexeme⟩ := reads.exists_lexeme faultless
    have taken : k.taken = text.length := by
      rw [← reads.fitsIn.size_eq_taken faultless, spells.size]
    have token : k.token offset = ⟨kind, Span.cover offset text.length, value, raw⟩ := by
      rw [Construct.token, spells.kind, spells.size, spells.value, spells.raw]
    have ih := ih behind
    rw [e, taken, List.drop_left] at ih
    rw [e, cons, token]
    exact .lexeme lexeme ih

/-- A row of blanks and lexemes is scanned without a diagnostic, and as it splits. -/
theorem startingAt_of_splits {offset : Nat} {text : List Char} {tokens : List Token}
    (splits : Splits offset text tokens) : startingAt offset text = ⟨tokens, [], none⟩ := by
  induction splits with
  | nil => exact startingAt_nil _
  | blank blank _ ih => rw [startingAt_blank blank, ih]
  | @lexeme offset text follow kind value raw tokens lexeme _ ih =>
    obtain ⟨head, tail, k, rfl, reads, spells⟩ := lexeme.exists_reads
    have taken : k.taken = (head :: tail).length := by
      rw [← reads.fitsIn.size_eq_taken spells.faultless, spells.size]
    have token : k.token offset =
        ⟨kind, Span.cover offset (head :: tail).length, value, raw⟩ := by
      rw [Construct.token, spells.kind, spells.size, spells.value, spells.raw]
    rw [List.cons_append, startingAt_construct reads, taken, ← List.cons_append, List.drop_left,
      ih, cons, token, Construct.diagnostics, spells.faultless]
    rfl

/-- A source that is a single lexeme. -/
theorem ofText_of_lexeme {text : List Char} {kind : TokenKind} {value : TokenValue}
    {raw : Option String} (lexeme : Lexeme text [] kind value raw) :
    ofText (String.ofList text) = ⟨[⟨kind, Span.cover 0 text.length, value, raw⟩], [], none⟩ := by
  have splits : Splits 0 (text ++ []) _ := .lexeme lexeme .nil
  rw [List.append_nil] at splits
  rw [ofText, String.toList_ofList, startingAt_of_splits splits]

/-- The sources without a diagnostic are those that split into blanks and lexemes, and the tokens
are then those of the lexemes: there is no other way to split them. -/
theorem ofText_faultless_iff (source : String) :
    ((ofText source).diagnostics = [] ↔ ∃ tokens, Splits 0 source.toList tokens) ∧
    ∀ tokens, Splits 0 source.toList tokens ↔
      (ofText source).diagnostics = [] ∧ (ofText source).tokens = tokens := by
  have sound : (ofText source).diagnostics = [] →
      Splits 0 source.toList (ofText source).tokens := startingAt_splits 0 source.toList
  have complete : ∀ tokens, Splits 0 source.toList tokens →
      ofText source = ⟨tokens, [], none⟩ := fun tokens => startingAt_of_splits
  refine ⟨⟨fun clean => ⟨_, sound clean⟩, ?_⟩, fun tokens => ⟨?_, ?_⟩⟩
  · rintro ⟨tokens, splits⟩
    rw [complete tokens splits]
  · intro splits
    rw [complete tokens splits]
    exact ⟨rfl, rfl⟩
  · rintro ⟨clean, rfl⟩
    exact sound clean

/-- A word may stand right behind a single digit, but not behind a zero. -/
theorem ofText_faultless_iff_digits :
    (∃ tokens, Splits 0 "7if .5e-3 /*1a*/'\\''".toList tokens) ∧
      ¬∃ tokens, Splits 0 "0if".toList tokens := by
  constructor
  · rw [← (ofText_faultless_iff _).1]
    decide +kernel
  · rw [← (ofText_faultless_iff _).1]
    decide +kernel

end Scan

end ScriptLexer
