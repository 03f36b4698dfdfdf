import ScriptLexer.Proofs.Cursor.Loops

/-
  Each reader with a cursor agrees with the construct that stands ahead (`readMeaning_eq`): it has
  no mishap, gives the kind, value and kept source text of the construct, and leaves the cursor
  behind what the construct takes, with the end of the token where the construct's token ends and
  with the construct's faults reported (`Cursor.after`).
-/

namespace ScriptLexer

/-- What the token of a construct is. -/
def Construct.meaning (k : Construct) : Meaning := ⟨k.kind, k.value, k.raw⟩

namespace Cursor

/-- Behind a construct that begins at the cursor. -/
def after (c : Cursor) (k : Construct) : Cursor where
  source := c.source
  pos := c.pos + k.taken
  lastPos := c.pos + k.size
  diagnostics := c.diagnostics ++ k.diagnostics c.pos

theorem peek_move_commit {c : Cursor} {head : Char} {rest : List Char}
    (ahead : c.ahead = head :: rest) (distance : Nat) :
    c.move.commit.peek distance = rest[distance]? := by
  rw [← getElem?_ahead, ahead_commit, ahead_move ahead]

theorem peek_zero_move_commit {c : Cursor} {head : Char} {rest : List Char}
    (ahead : c.ahead = head :: rest) : c.move.commit.peek 0 = rest.head? := by
  rw [peek_move_commit ahead, List.head?_eq_getElem?]

/-- Where the construct began, seen from behind its first character. -/
theorem start_eq (c : Cursor) : (c.move.commit.pos : Int) - 1 = (c.pos : Int) := by
  show ((c.pos + 1 : Nat) : Int) - 1 = _
  omega

/-! ## Rows of marks -/

theorem extent_keep_append (front : List Char) (marks : List Mark) :
    Mark.extent (front.map .keep ++ marks) = front.length + Mark.extent marks := by
  induction front with
  | nil => exact (Nat.zero_add _).symm
  | cons char front ih =>
    rw [List.map_cons, List.cons_append, Mark.extent, ih, List.length_cons, Nat.add_right_comm]
    rfl

theorem faults_keep_append (start : Nat) (front : List Char) (marks : List Mark) :
    Mark.faults start (front.map .keep ++ marks) = Mark.faults (start + front.length) marks := by
  induction front generalizing start with
  | nil => rfl
  | cons char front ih =>
    rw [List.map_cons, List.cons_append, Mark.faults_cons, ih, List.length_cons,
      Nat.add_right_comm]
    rfl

variable {k : Construct} {text front : List Char} {marks : List Mark} {own : List Fault}

/-- Going over a construct that is a row, before it reports faults of its own. -/
theorem pass_row (c : Cursor) (row : k.IsRow text front marks own) :
    c.pass (front.map .keep ++ marks) =
      { c.after k with
        diagnostics := c.diagnostics ++
          (Mark.faults front.length marks).map (·.diagnostic c.pos) } := by
  have size : Mark.extent (front.map .keep ++ marks) = k.size := by
    rw [extent_keep_append, row.size]
  have taken : (front.map Mark.keep ++ marks).length = k.taken := by
    rw [List.length_append, List.length_map, row.taken]
  have some : ¬k.size = 0 := Nat.ne_of_gt k.size_pos
  rw [pass_eq c _ c.pos (Nat.le_refl _), size, taken, if_neg some, Nat.sub_self,
    faults_keep_append, Nat.zero_add]
  rfl

theorem pass_row_after (c : Cursor) (row : k.IsRow text front marks []) :
    c.pass (front.map .keep ++ marks) = c.after k := by
  rw [pass_row c row, ← List.append_nil (Mark.faults front.length marks), ← row.faults]
  rfl

/-- A construct that is reported as a whole. -/
theorem report_row (c : Cursor) {kind : DiagnosticKind} {char : Char}
    (row : k.IsRow text front marks [⟨kind, char, 0, k.size⟩]) {stop : Int}
    (last : stop = (c.pass (front.map .keep ++ marks)).lastPos) :
    (c.pass (front.map .keep ++ marks)).report kind char c.pos stop = .ok (c.after k) := by
  have lastPos : stop = ((c.pos + k.size : Nat) : Int) := by
    rw [last, pass_row c row]
    rfl
  have ordered : (c.pos : Int) ≤ stop := by omega
  have diagnostics : c.diagnostics ++ k.diagnostics c.pos = c.diagnostics ++
      (Mark.faults front.length marks).map (·.diagnostic c.pos) ++
        [⟨kind, char.toString, ⟨c.pos, stop, ordered⟩⟩] := by
    rw [Construct.diagnostics, row.faults, List.map_append, List.append_assoc]
    simp [Fault.diagnostic, Span.cover, lastPos]
  rw [report_eq _ ordered, pass_row c row, after, diagnostics]

/-! ## Numbers -/

/-- A decimal begins with a digit, or with a point that has a digit behind it. -/
def BeginsDecimal (head : Char) (rest : List Char) : Prop :=
  head.isDigit = true ∨ head = '.' ∧ ∃ next more, rest = next :: more ∧ next.isDigit = true

/-- What is kept of a decimal can be converted. -/
theorem floatOf?_kept {head : Char} {rest : List Char} (begins : BeginsDecimal head rest) :
    floatOf? ((head :: Mark.text (decimalMarks
        (if head = '.' then .fraction else .whole) (run rest))).rdropWhile isCutOff) =
      some (decimalValue (head :: Mark.text (decimalMarks
        (if head = '.' then .fraction else .whole) (run rest)))) := by
  rcases begins with digit | ⟨rfl, next, more, rfl, digit⟩
  · rw [if_neg (isDigit_ne_point digit)]
    exact floatOf?_whole digit (accepts_text_decimalMarks _ _)
  · have step := DecimalPart.next?_of_isDigit digit .fraction
    have accepted := accepts_text_decimalMarks .fraction (run (next :: more))
    rw [run_cons (not_isBlank_of_isDigit digit), decimalMarks_cons_digit step digit] at accepted
    rw [if_pos rfl, run_cons (not_isBlank_of_isDigit digit), decimalMarks_cons_digit step digit]
    exact floatOf?_point digit accepted

theorem readDecimal_refines {c : Cursor} {head : Char} {rest : List Char}
    (ahead : c.ahead = head :: rest) (begins : BeginsDecimal head rest) (start : Int) :
    c.move.commit.readDecimal head start =
      .ok (decimalValue (Mark.text (decimalRun head rest)), c.pass (decimalRun head rest)) := by
  have front : c.move.commit.ahead = rest := ahead_move ahead
  unfold readDecimal decimalRun
  rw [peek_zero_move_commit ahead]
  by_cases goes : rest.head?.any continuesDecimal = true
  · have part : reached (head == '.') false = if head = '.' then .fraction else .whole := by
      by_cases point : head = '.' <;> simp [reached, point]
    rw [if_pos goes, if_pos goes, decimalLoop_eq, ok_bind, front, part, pass_cons, passMark_keep]
    dsimp only
    rw [List.singleton_append, floatOf?_kept begins]
    rfl
  · have digit : head.isDigit = true := by
      rcases begins with digit | ⟨rfl, next, more, rfl, digit⟩
      · exact digit
      · exact absurd (continuesDecimal_iff.mpr (Or.inl digit)) goes
    rw [if_neg goes, if_neg goes, floatOf?_digit digit]
    exact congrArg (fun c' => Except.ok (decimalValue [head], c')) (passMark_keep c head).symm

theorem text_radix_digits (radix : Radix) (text : List Char) :
    ∀ c ∈ Mark.text (text.map radix.mark), radix.isDigit c = true := by
  intro c mem
  rw [radix.mark_sortsBy.text_map] at mem
  exact (List.mem_filter.mp mem).2

/-- With a digit of its base, a number can be converted. -/
theorem readRadix_some (radix : Radix) (start : Int) (c : Cursor)
    (some : ¬(Mark.text ((run c.ahead).map radix.mark)).isEmpty = true) :
    c.readRadix radix start = .ok (radix.value (Mark.text ((run c.ahead).map radix.mark)),
      c.pass ((run c.ahead).map radix.mark)) := by
  unfold readRadix
  rw [keepRun_eq (sorts_of_sortsBy radix.mark_sortsBy), ok_bind]
  dsimp only
  rw [List.nil_append, Radix.floatOf?_eq (text_radix_digits radix _), if_neg some]
  rfl

theorem radix_value_nil (radix : Radix) : radix.value [] = .zero :=
  Binary64.ofRatio_zero

/-- A number behind the letter of its base. -/
theorem readRadix_refines {c : Cursor} {letter : Char} {rest : List Char} (radix : Radix)
    (ahead : c.ahead = '0' :: letter :: rest) :
    c.move.commit.move.commit.readRadix radix c.pos =
      .ok (radix.value (Mark.text ((run rest).map radix.mark)),
        c.after (ScriptLexer.readRadix radix rest)) := by
  have front : c.move.commit.move.commit.ahead = rest := by
    have behind : c.move.commit.ahead = letter :: rest := ahead_move ahead
    exact ahead_move behind
  have passed : c.move.commit.move.commit.pass ((run rest).map radix.mark) =
      c.pass (['0', letter].map .keep ++ (run rest).map radix.mark) := by
    rw [← passMark_keep c '0', ← passMark_keep _ letter]
    rfl
  have row := readRadix_isRow radix letter rest
  by_cases none : (Mark.text ((run rest).map radix.mark)).isEmpty = true
  · have missing : missingDigits (ScriptLexer.readRadix radix rest)
        (Mark.text ((run rest).map radix.mark)) =
        [⟨.invalidNumericLiteral, '0', 0, (ScriptLexer.readRadix radix rest).size⟩] := if_pos none
    rw [missing] at row
    have char : (c.pass (['0', letter].map .keep ++ (run rest).map radix.mark)).charAt c.pos =
        .ok '0' := by
      have there : c.source[c.pos]? = some '0' := by
        rw [← Nat.add_zero c.pos, ← peek, ← getElem?_ahead, ahead]
        rfl
      rw [charAt, pass_row c row]
      simp [after, there]
    have stop : max ((c.pass (['0', letter].map .keep ++ (run rest).map radix.mark)).lastPos : Int)
        (c.pos + 1) = (c.pass (['0', letter].map .keep ++ (run rest).map radix.mark)).lastPos := by
      rw [pass_row c row]
      have := (ScriptLexer.readRadix radix rest).size_pos
      show max ((c.pos + (ScriptLexer.readRadix radix rest).size : Nat) : Int) (c.pos + 1) =
        ((c.pos + (ScriptLexer.readRadix radix rest).size : Nat) : Int)
      omega
    unfold readRadix
    rw [keepRun_eq (sorts_of_sortsBy radix.mark_sortsBy), ok_bind, front, passed]
    dsimp only
    rw [List.nil_append, Radix.floatOf?_eq (text_radix_digits radix _), if_pos none, toNumber,
      char, ok_bind, report_row c row stop, ok_bind, List.isEmpty_iff.mp none, radix_value_nil]
  · have missing : missingDigits (ScriptLexer.readRadix radix rest)
        (Mark.text ((run rest).map radix.mark)) = [] := if_neg none
    rw [missing] at row
    rw [readRadix_some radix c.pos _ (by rw [front]; exact none), front, passed,
      pass_row_after c row]

/-- An old octal number; `rest` comes after the zero. -/
theorem readLegacyOctal_refines {c : Cursor} {digit : Char} {rest : List Char}
    (ahead : c.ahead = '0' :: digit :: rest) (octal : isOctalDigit digit = true) :
    (do let (x, c') ← c.move.commit.readRadix .octal c.pos
        let c'' ← c'.report .legacyOctalLiteral '0' c.pos c'.lastPos
        .ok (x, c'')) =
      .ok (Radix.octal.value (Mark.text ((run (digit :: rest)).map Radix.octal.mark)),
        c.after (readLegacyOctal (digit :: rest))) := by
  have front : c.move.commit.ahead = digit :: rest := ahead_move ahead
  have dark := not_isBlank_of_isDigit (isDigit_of_isOctalDigit octal)
  have kept : Radix.octal.mark digit = .keep digit := if_pos octal
  have some : ¬(Mark.text ((run c.move.commit.ahead).map Radix.octal.mark)).isEmpty = true := by
    rw [front, run_cons dark, List.map_cons, kept]
    exact Bool.false_ne_true
  have row := readLegacyOctal_isRow (digit :: rest)
  have passed : c.move.commit.pass ((run (digit :: rest)).map Radix.octal.mark) =
      c.pass (['0'].map .keep ++ (run (digit :: rest)).map Radix.octal.mark) := by
    rw [← passMark_keep c '0']
    rfl
  rw [readRadix_some .octal c.pos _ some, front, passed, ok_bind]
  dsimp only
  rw [report_row c row rfl, ok_bind]

/-- An old decimal number; `next` comes after the zero. -/
theorem readLegacyDecimal_refines {c : Cursor} {next : Char} {rest : List Char}
    (ahead : c.ahead = '0' :: next :: rest) (digit : next.isDigit = true) :
    (do let (x, c') ← c.move.commit.move.commit.readDecimal next c.pos
        let c'' ← c'.report .legacyDecimalEscape '0' c.pos c'.lastPos
        .ok (x, c'')) =
      .ok (decimalValue (Mark.text (decimalRun next rest)),
        c.after (readLegacyDecimal next rest)) := by
  have behind : c.move.commit.ahead = next :: rest := ahead_move ahead
  have row := readLegacyDecimal_isRow rest (not_isBlank_of_isDigit digit)
  have passed : c.move.commit.pass (decimalRun next rest) =
      c.pass (['0'].map .keep ++ decimalRun next rest) := by
    rw [← passMark_keep c '0']
    rfl
  rw [readDecimal_refines behind (Or.inl digit) c.pos, passed, ok_bind]
  dsimp only
  rw [report_row c row rfl, ok_bind]

/-- A decimal with nothing in front of it. -/
theorem readDecimal_after {c : Cursor} {head : Char} {rest : List Char}
    (ahead : c.ahead = head :: rest) (begins : BeginsDecimal head rest)
    (dark : isBlank head = false) (start : Int) :
    c.move.commit.readDecimal head start =
      .ok (decimalValue (Mark.text (decimalRun head rest)),
        c.after (ScriptLexer.readDecimal head rest)) := by
  have passed : c.pass (decimalRun head rest) = c.after (ScriptLexer.readDecimal head rest) :=
    pass_row_after c (readDecimal_isRow rest dark)
  rw [readDecimal_refines ahead begins, passed]

theorem after_loneZero (c : Cursor) : c.move.commit = c.after (loneZero []) := by
  simp [after, move, commit, loneZero, Construct.diagnostics]

theorem readNumeric_refines {c : Cursor} {head : Char} {rest : List Char}
    (ahead : c.ahead = head :: rest) (digit : head.isDigit = true) :
    ∃ x, (readNumber head rest).meaning = { kind := .number, value := .number x } ∧
      c.move.commit.readNumeric head = .ok (x, c.after (readNumber head rest)) := by
  unfold readNumeric readNumber
  rw [start_eq]
  by_cases zero : head = '0'
  · subst zero
    rw [if_neg (not_not.mpr rfl), if_pos rfl, peek_zero_move_commit ahead,
      peek_move_commit ahead]
    cases rest with
    | nil => exact ⟨.zero, rfl, congrArg (fun c' => Except.ok (_, c')) (after_loneZero c)⟩
    | cons next rest =>
      rw [List.head?_cons, readAfterZero]
      dsimp only
      cases named : Radix.ofLetter? next with
      | some radix => exact ⟨_, rfl, readRadix_refines radix ahead⟩
      | none =>
        dsimp only
        by_cases beyond : next = '8' ∨ next = '9'
        · have digit : next.isDigit = true := isDigit_iff_octal.mpr (Or.inr beyond)
          rw [if_pos beyond, if_pos beyond]
          exact ⟨_, rfl, readLegacyDecimal_refines ahead digit⟩
        rw [if_neg beyond, if_neg beyond]
        by_cases octal : isOctalDigit next = true
        · rw [if_pos octal, if_pos octal]
          exact ⟨_, rfl, readLegacyOctal_refines ahead octal⟩
        rw [if_neg octal, if_neg octal]
        have second : (next :: rest)[1]? = rest.head? := by
          rw [List.getElem?_cons_succ, List.head?_eq_getElem?]
        rw [second]
        by_cases fraction : next = '.' ∧ rest.head?.any Char.isDigit = true
        · rw [if_pos fraction, if_pos fraction]
          exact ⟨_, rfl, readDecimal_after ahead (Or.inl rfl) (by decide) _⟩
        rw [if_neg fraction, if_neg fraction]
        by_cases blank : isBlank next = true
        · rw [if_pos blank, if_pos blank]
          exact ⟨.zero, rfl, congrArg (fun c' => Except.ok (_, c')) (after_loneZero c)⟩
        · have ordered : (c.move.commit.pos : Int) ≤ c.move.commit.pos + 1 := by omega
          rw [if_neg blank, if_neg blank, report_eq _ ordered]
          refine ⟨.zero, rfl, ?_⟩
          simp [ok_bind, after, loneZero, move, commit, Construct.diagnostics,
            Fault.diagnostic, Span.cover]
  · rw [if_pos zero, if_neg zero]
    exact ⟨_, rfl, readDecimal_after ahead (Or.inl digit) (not_isBlank_of_isDigit digit) _⟩

/-! ## Words, strings, comments and symbols -/

theorem readIdentifier_refines {c : Cursor} {head : Char} {rest : List Char}
    (ahead : c.ahead = head :: rest) (dark : isBlank head = false) :
    c.move.commit.readIdentifier head =
      .ok (Word.ofText (String.ofList (Mark.text (wordMarks head rest))),
        c.after (readWord head rest)) := by
  have front : c.move.commit.ahead = rest := ahead_move ahead
  have passed : c.pass (wordMarks head rest) = c.after (readWord head rest) :=
    pass_row_after c (readWord_isRow rest dark)
  unfold readIdentifier
  rw [keepRun_eq (sorts_of_sortsBy wordMark_sortsBy), front, ← passMark_keep c head, ← pass_cons, ← wordMarks, passed]
  rfl

theorem readString_refines {c : Cursor} {quote : Char} {rest : List Char}
    (ahead : c.ahead = quote :: rest) :
    c.move.commit.stringLoop quote c.pos [] [quote] =
      .ok (((stringBody quote rest).value,
          (quote :: rest).take (1 + (stringBody quote rest).length)),
        c.after (readString quote rest)) := by
  have front : c.move.commit.ahead = rest := ahead_move ahead
  have begins : c.pos ≤ c.move.commit.pos := Nat.le_succ _
  have size : c.pos + 1 + (stringBody quote rest).length - c.pos =
      1 + (stringBody quote rest).length := by omega
  rw [stringLoop_eq quote c.pos _ _ _ begins rfl, strung, front, move_commit_eq, moveOver_moveOver]
  show Except.ok (([] ++ _, [quote] ++ rest.take _), c.moveOver _ (if _ then [] else
    [⟨_, _, Span.cover c.pos (c.pos + 1 + _ - c.pos)⟩])) = _
  rw [size, Nat.add_comm 1, List.take_succ_cons]
  refine congrArg Except.ok (congrArg _ ?_)
  simp only [moveOver, after, readString, Construct.diagnostics, Nat.add_comm 1]
  split <;> simp [Fault.diagnostic]

theorem readLineComment_refines {c : Cursor} {body : List Char}
    (ahead : c.ahead = '/' :: '/' :: body) :
    c.move.commit.move.commit.lineLoop.commit = c.after (readLineComment body) := by
  have front : c.move.commit.move.commit.ahead = body := by
    have behind : c.move.commit.ahead = '/' :: body := ahead_move ahead
    exact ahead_move behind
  rw [lineLoop_eq, front]
  simp [move, commit, after, readLineComment, Construct.diagnostics, Nat.add_assoc]

theorem readBlockComment_refines {c : Cursor} {body : List Char}
    (ahead : c.ahead = '/' :: '*' :: body) :
    (c.move.commit.move.commit.blockLoop (c.move.commit.move.pos - 2)).map commit =
      .ok (c.after (readBlockComment body)) := by
  have front : c.move.commit.move.commit.ahead = body := by
    have behind : c.move.commit.ahead = '*' :: body := ahead_move ahead
    exact ahead_move behind
  have start : (c.move.commit.move.pos : Int) - 2 = c.pos := by
    show ((c.pos + 1 + 1 : Nat) : Int) - 2 = c.pos
    omega
  have begins : c.pos ≤ c.move.commit.move.commit.pos := Nat.le_add_right _ 2
  have size : c.pos + (2 + (blockComment body).1) - c.pos = 2 + (blockComment body).1 := by
    omega
  rw [start, blockLoop_eq c.pos _ begins, front]
  refine congrArg Except.ok ?_
  simp only [move, commit, after, readBlockComment, Construct.diagnostics, Nat.add_assoc,
    Nat.reduceAdd, size]
  split
  · rfl
  · rfl

/-- Where no construct begins, the character is reported and nothing is read. -/
def stopAt (c : Cursor) (head : Char) : Cursor := c.passMark ⟨head, true, some .unexpectedToken⟩

theorem readSymbol_refines {c : Cursor} {head : Char} {rest : List Char}
    (ahead : c.ahead = head :: rest) :
    c.move.commit.readSymbol head =
      .ok (match Construct.atFront?.symbol head rest with
        | some k => (some k.meaning, c.after k)
        | none => (none, c.stopAt head)) := by
  have front : c.move.commit.ahead = rest := ahead_move ahead
  unfold readSymbol Construct.atFront?.symbol
  rw [front]
  cases found : Symbol.atFront? (head :: rest) with
  | none =>
    dsimp only [Option.map_none]
    rw [stray_commit_move]
    rfl
  | some s =>
    have pos := s.text_length_pos
    have passed : c.pos + 1 + (s.text.length - 1) = c.pos + s.text.length := by omega
    simp [move, commit, after, ScriptLexer.readSymbol, Construct.diagnostics,
      Construct.meaning, passed]

/-! ## What stands ahead -/

/-- Reading with a cursor gives the construct that stands ahead. -/
theorem readMeaning_eq {c : Cursor} {head : Char} {rest : List Char}
    (ahead : c.ahead = head :: rest) :
    c.move.commit.readMeaning head =
      .ok (match Construct.atFront? head rest with
        | some k => (some k.meaning, c.after k)
        | none => (none, c.stopAt head)) := by
  have reads {k : Construct} (reads : Construct.Reads head rest k) :
      Construct.atFront? head rest = some k := Construct.atFront?_eq_some_iff.mpr reads
  unfold readMeaning
  rw [start_eq, peek_zero_move_commit ahead]
  by_cases quote : head = '"' ∨ head = '\''
  · rw [if_pos quote, readString_refines ahead, reads (.string quote)]
    rfl
  rw [if_neg quote]
  by_cases digit : head.isDigit = true
  · obtain ⟨x, meaning, read⟩ := readNumeric_refines ahead digit
    rw [if_pos digit, read, Construct.atFront?_of_isDigit rest digit]
    show Except.ok (some _, _) = Except.ok (some (readNumber head rest).meaning, _)
    rw [meaning]
  rw [if_neg digit]
  by_cases start : isIdentStart head = true
  · rw [if_pos start, readIdentifier_refines ahead (not_isBlank_of_isIdentStart start),
      reads (.word start)]
    rfl
  rw [if_neg start]
  by_cases point : head = '.' ∧ rest.head?.any Char.isDigit = true
  · rw [if_pos point]
    obtain ⟨rfl, digit⟩ := point
    cases rest with
    | nil => contradiction
    | cons next rest =>
      have begins : BeginsDecimal '.' (next :: rest) := Or.inr ⟨rfl, next, rest, rfl, digit⟩
      rw [readDecimal_after ahead begins (by decide), reads (.pointDecimal digit)]
      rfl
  rw [if_neg point]
  by_cases line : head = '/' ∧ rest.head? = some '/'
  · rw [if_pos line]
    obtain ⟨rfl, slash⟩ := line
    obtain ⟨body, rfl⟩ := List.head?_eq_some_iff.mp slash
    rw [readLineComment_refines ahead, reads .lineComment]
    rfl
  rw [if_neg line]
  by_cases block : head = '/' ∧ rest.head? = some '*'
  · rw [if_pos block]
    obtain ⟨rfl, star⟩ := block
    obtain ⟨body, rfl⟩ := List.head?_eq_some_iff.mp star
    have read := readBlockComment_refines ahead
    cases loop : c.move.commit.move.commit.blockLoop (c.move.commit.move.pos - 2) with
    | error mishap =>
      rw [loop] at read
      contradiction
    | ok c' =>
      rw [loop, Except.map, Except.ok.injEq] at read
      rw [reads .blockComment]
      show Except.ok (some _, c'.commit) = Except.ok (some _, c.after _)
      rw [read]
      rfl
  have shorter : ¬Construct.BeginsLonger (head :: rest) := by
    intro longer
    cases longer with
    | lineComment => exact line ⟨rfl, rfl⟩
    | blockComment => exact block ⟨rfl, rfl⟩
    | pointDecimal behind => exact point ⟨rfl, behind⟩
  rw [if_neg block, readSymbol_refines ahead,
    Construct.atFront?_eq_symbol quote digit start shorter]

end Cursor

end ScriptLexer
