import ScriptLexer.Proofs.Cursor.Conversion
import ScriptLexer.Proofs.Scan.Seam

/-
  What the loops of the readers come to. Going over a run is passing its row of marks
  (`keepRun_eq`, `decimalLoop_eq`); strings and comments take the length that the text ahead
  gives them. No loop has a mishap: a stray is reported behind its character, and a construct that
  is left open is reported from its beginning to the cursor.
-/

namespace ScriptLexer

theorem run_isEmpty_iff {text : List Char} : (run text).isEmpty = true ↔ AtBoundary text := by
  rw [List.isEmpty_iff, run_eq_nil_iff]

namespace Cursor

theorem ahead_eq_nil {c : Cursor} (h : c.peek 0 = none) : c.ahead = [] := by
  rw [peek_zero] at h
  exact List.head?_eq_none_iff.mp h

theorem ahead_eq_cons {c : Cursor} {char : Char} (h : c.peek 0 = some char) :
    c.ahead = char :: c.move.ahead := by
  rw [peek_zero] at h
  obtain ⟨rest, e⟩ := List.head?_eq_some_iff.mp h
  rw [ahead_move e, e]

theorem run_ahead_of_none {c : Cursor} (h : c.peek 0 = none) : run c.ahead = [] := by
  rw [ahead_eq_nil h]
  rfl

theorem run_ahead_of_blank {c : Cursor} {char : Char} (h : c.peek 0 = some char)
    (blank : isBlank char = true) : run c.ahead = [] := by
  rw [ahead_eq_cons h]
  exact run_eq_nil (atBoundary_cons.mpr blank)

theorem run_ahead_of_dark {c : Cursor} {char : Char} (h : c.peek 0 = some char)
    (dark : ¬isBlank char = true) : run c.ahead = char :: run c.move.ahead := by
  rw [ahead_eq_cons h]
  exact run_cons (Bool.not_eq_true _ ▸ dark) _

theorem pass_cons (c : Cursor) (m : Mark) (marks : List Mark) :
    c.pass (m :: marks) = (c.passMark m).pass marks := rfl

@[simp] theorem ahead_passMark (c : Cursor) (m : Mark) : (c.passMark m).ahead = c.move.ahead := rfl

/-! ## Runs of words and of numbers that name their base -/

/-- Each mark keeps its character or makes a stray of it. -/
def Sorts (mark : Char → Mark) : Prop :=
  ∀ char, mark char = .keep char ∨ ∃ kind, mark char = .stray kind char

theorem sorts_of_sortsBy {mark : Char → Mark} {belongs : Char → Bool}
    {kind : Char → DiagnosticKind} (sorts : Mark.SortsBy mark belongs kind) : Sorts mark :=
  fun c => (sorts.keep_or_stray c).imp_right fun stray => ⟨_, stray⟩

theorem keepRun_eq {mark : Char → Mark} (sorts : Sorts mark) (c : Cursor) (text : List Char) :
    c.keepRun mark text = .ok (text ++ Mark.text ((run c.ahead).map mark),
      c.pass ((run c.ahead).map mark)) := by
  fun_induction keepRun mark c text with
  | case1 c text nothing =>
    rw [run_ahead_of_none nothing]
    simp [Mark.text, pass]
  | case2 c text char there blank =>
    rw [run_ahead_of_blank there blank]
    simp [Mark.text, pass]
  | case3 c text char there dark kept ih =>
    have keep : mark char = .keep char := by
      rcases sorts char with keep | ⟨kind, stray⟩
      · exact keep
      · rw [stray] at kept
        contradiction
    rw [ih, ahead_commit, run_ahead_of_dark there dark, List.map_cons, keep, pass_cons,
      passMark_keep, List.append_assoc]
    rfl
  | case4 c text char there dark kind fault mishap failed =>
    rw [stray_move] at failed
    contradiction
  | case5 c text char there dark kind fault c' reported ih =>
    have stray : mark char = .stray kind char := by
      rcases sorts char with keep | ⟨kind', stray⟩
      · rw [keep] at fault
        contradiction
      · rw [stray] at fault
        rw [stray, Option.some.inj fault]
    rw [stray_move, Except.ok.injEq] at reported
    subst reported
    rw [ih, ahead_passMark, run_ahead_of_dark there dark, List.map_cons, stray, pass_cons]
    rfl

/-! ## Runs of decimals -/

/-- The part of the decimal that has been reached when a point or an exponent mark has been seen. -/
def reached (point mark : Bool) : DecimalPart :=
  if mark then .exponent else if point then .fraction else .whole

/-- A kept character is reported if nothing follows it. -/
theorem strayAtEnd_eq (c : Cursor) (text : List Char) (char : Char) :
    c.move.commit.strayAtEnd (text ++ [char]) = .ok (c.passMark ⟨char, true,
      if (run c.move.ahead).isEmpty then some .invalidOrUnexpectedToken else none⟩) := by
  have ends : c.move.commit.atBoundary = true ↔ AtBoundary c.move.ahead := atBoundary_iff
  unfold strayAtEnd
  by_cases boundary : AtBoundary c.move.ahead
  · rw [if_pos (ends.mpr boundary), if_pos (run_isEmpty_iff.mpr boundary), List.getLast?_concat]
    exact stray_commit_move c _ char
  · rw [if_neg (mt ends.mp boundary), if_neg (mt run_isEmpty_iff.mp boundary)]
    exact congrArg Except.ok (passMark_keep c char).symm

theorem next?_reached_digit {char : Char} (digit : char.isDigit = true) (point mark : Bool) :
    (reached point mark).next? char = some (reached point mark) := by
  unfold DecimalPart.next?
  rw [if_pos digit]
  cases point <;> cases mark <;> rfl

theorem next?_reached_mark {char : Char} (isMark : isExponentMark char = true) (point : Bool) :
    (reached point false).next? char = some .exponentMark := by
  simp only [isExponentMark, Bool.or_eq_true, beq_iff_eq] at isMark
  rcases isMark with rfl | rfl <;> cases point <;> rfl

theorem next?_reached_stray {char : Char} {point mark : Bool} (digit : ¬char.isDigit = true)
    (noPoint : ¬(char = '.' ∧ point = false ∧ mark = false))
    (noMark : ¬(isExponentMark char = true ∧ mark = false)) :
    (reached point mark).next? char = none := by
  unfold DecimalPart.next?
  rw [if_neg digit]
  cases mark with
  | true => rfl
  | false =>
    have noMark : ¬isExponentMark char = true := fun isMark => noMark ⟨isMark, rfl⟩
    cases point with
    | true => exact if_neg noMark
    | false =>
      have noPoint : ¬char = '.' := fun isPoint => noPoint ⟨isPoint, rfl, rfl⟩
      show (if char = '.' then _ else if isExponentMark char then _ else _) = none
      rw [if_neg noPoint, if_neg noMark]

theorem decimalMarks_cons_digit {part next : DecimalPart} {char : Char}
    (step : part.next? char = some next) (digit : char.isDigit = true) (rest : List Char) :
    decimalMarks part (char :: rest) = .keep char :: decimalMarks next rest := by
  rw [decimalMarks, step]
  simp [digit, Mark.keep]

/-- A point, an exponent mark or a sign is reported if nothing follows it. -/
theorem decimalMarks_cons_other {part next : DecimalPart} {char : Char}
    (step : part.next? char = some next) (digit : ¬char.isDigit = true) (rest : List Char) :
    decimalMarks part (char :: rest) =
      ⟨char, true, if rest.isEmpty then some .invalidOrUnexpectedToken else none⟩ ::
        decimalMarks next rest := by
  rw [decimalMarks, step]
  simp [digit]

theorem decimalMarks_cons_stray {part : DecimalPart} {char : Char}
    (step : part.next? char = none) (rest : List Char) :
    decimalMarks part (char :: rest) =
      .stray .invalidOrUnexpectedToken char :: decimalMarks part.afterStray rest := by
  rw [decimalMarks, step]

/-- Where no sign follows the exponent mark, its place has passed. -/
theorem decimalMarks_unsigned {text : List Char}
    (noSign : ∀ char ∈ text.head?, ¬isSign char = true) :
    decimalMarks .exponentMark text = decimalMarks .exponent text := by
  cases text with
  | nil => rfl
  | cons char rest =>
    by_cases digit : char.isDigit = true
    · have step : DecimalPart.exponentMark.next? char = some .exponent :=
        DecimalPart.next?_of_isDigit digit _
      have step' : DecimalPart.exponent.next? char = some .exponent :=
        DecimalPart.next?_of_isDigit digit _
      rw [decimalMarks_cons_digit step digit, decimalMarks_cons_digit step' digit]
    · have step : DecimalPart.exponentMark.next? char = none := by
        unfold DecimalPart.next?
        rw [if_neg digit]
        exact if_neg (noSign char rfl)
      have step' : DecimalPart.exponent.next? char = none := by
        unfold DecimalPart.next?
        rw [if_neg digit]
      rw [decimalMarks_cons_stray step, decimalMarks_cons_stray step']
      rfl

theorem head?_of_mem_run {text : List Char} {char : Char} (h : char ∈ (run text).head?) :
    char ∈ text.head? := by
  cases text with
  | nil => exact h
  | cons d rest =>
    by_cases blank : isBlank d = true
    · rw [run_eq_nil (atBoundary_cons.mpr blank)] at h
      contradiction
    · rw [run_cons (Bool.not_eq_true _ ▸ blank)] at h
      exact h

theorem not_isBlank_of_isSign {char : Char} (sign : isSign char = true) :
    ¬isBlank char = true := by
  simp only [isSign, Bool.or_eq_true, beq_iff_eq] at sign
  rcases sign with rfl | rfl <;> decide

theorem not_isDigit_of_isSign {char : Char} (sign : isSign char = true) :
    ¬char.isDigit = true := by
  simp only [isSign, Bool.or_eq_true, beq_iff_eq] at sign
  rcases sign with rfl | rfl <;> decide

/-- An exponent mark is kept together with the sign behind it, if there is one. -/
theorem keepSign_eq (c : Cursor) (text : List Char) {char : Char}
    (isMark : isExponentMark char = true) (digit : ¬char.isDigit = true) (point : Bool) :
    ∃ marks, (c.move.commit.keepSign (text ++ [char])).1.strayAtEnd
        (c.move.commit.keepSign (text ++ [char])).2 = .ok (c.pass marks) ∧
      (c.move.commit.keepSign (text ++ [char])).2 = text ++ Mark.text marks ∧
      decimalMarks (reached point false) (char :: run c.move.ahead) =
        marks ++ decimalMarks .exponent (run (c.pass marks).ahead) := by
  have step := next?_reached_mark isMark point
  by_cases signed : ∃ sign, c.move.commit.peek 0 = some sign ∧ isSign sign = true
  · obtain ⟨sign, there, isSign⟩ := signed
    have kept : c.move.commit.keepSign (text ++ [char]) =
        (c.move.commit.move.commit, text ++ [char] ++ [sign]) := by
      simp only [keepSign, there, isSign, if_true]
    have rest : run c.move.ahead = sign :: run c.move.move.ahead :=
      run_ahead_of_dark (c := c.move.commit) there (not_isBlank_of_isSign isSign)
    refine ⟨[.keep char, ⟨sign, true, if (run c.move.move.ahead).isEmpty then
      some .invalidOrUnexpectedToken else none⟩], ?_, ?_, ?_⟩
    · rw [kept, strayAtEnd_eq, pass_cons, passMark_keep]
      rfl
    · rw [kept, List.append_assoc]
      rfl
    · have signStep : DecimalPart.exponentMark.next? sign = some .exponent := by
        unfold DecimalPart.next?
        rw [if_neg (not_isDigit_of_isSign isSign)]
        exact if_pos isSign
      rw [rest, decimalMarks_cons_other step digit,
        decimalMarks_cons_other signStep (not_isDigit_of_isSign isSign)]
      rfl
  · have kept : c.move.commit.keepSign (text ++ [char]) =
        (c.move.commit, text ++ [char]) := by
      unfold keepSign
      split
      · next sign there => exact if_neg fun isSign => signed ⟨sign, there, isSign⟩
      · rfl
    refine ⟨[⟨char, true, if (run c.move.ahead).isEmpty then
      some .invalidOrUnexpectedToken else none⟩], ?_, ?_, ?_⟩
    · rw [kept, strayAtEnd_eq]
      rfl
    · rw [kept]
      rfl
    · rw [decimalMarks_cons_other step digit, decimalMarks_unsigned]
      · rfl
      · intro sign mem isSign
        refine signed ⟨sign, ?_, isSign⟩
        rw [peek_zero]
        exact head?_of_mem_run mem

theorem text_append (marks marks' : List Mark) :
    Mark.text (marks ++ marks') = Mark.text marks ++ Mark.text marks' := by
  rw [Mark.text, Mark.text, Mark.text, List.filter_append, List.map_append]

theorem pass_append (c : Cursor) (marks marks' : List Mark) :
    c.pass (marks ++ marks') = (c.pass marks).pass marks' := List.foldl_append

theorem decimalLoop_eq (point mark : Bool) (c : Cursor) (text : List Char) :
    c.decimalLoop point mark text =
      .ok (text ++ Mark.text (decimalMarks (reached point mark) (run c.ahead)),
        c.pass (decimalMarks (reached point mark) (run c.ahead))) := by
  fun_induction decimalLoop point mark c text with
  | case1 point mark c text nothing =>
    rw [run_ahead_of_none nothing]
    simp [decimalMarks, Mark.text, pass]
  | case2 point mark c text char there blank =>
    rw [run_ahead_of_blank there blank]
    simp [decimalMarks, Mark.text, pass]
  | case3 point mark c text char there dark digit ih =>
    rw [ih, ahead_commit, run_ahead_of_dark there dark,
      decimalMarks_cons_digit (next?_reached_digit digit point mark) digit, pass_cons,
      passMark_keep, List.append_assoc]
    rfl
  | case4 point mark c text char there dark digit isPoint mishap failed =>
    rw [strayAtEnd_eq] at failed
    contradiction
  | case5 point mark c text char there dark digit isPoint c' reported ih =>
    obtain ⟨rfl, rfl, rfl⟩ := isPoint
    rw [strayAtEnd_eq, Except.ok.injEq] at reported
    subst reported
    have step : (reached false false).next? '.' = some (reached true false) := rfl
    rw [ih, ahead_passMark, run_ahead_of_dark there dark, decimalMarks_cons_other step digit,
      pass_cons, List.append_assoc]
    rfl
  | case6 point mark c text char there dark digit noPoint isMark signed mishap failed =>
    obtain ⟨marks, kept, -⟩ := keepSign_eq c text isMark.1 digit point
    rw [kept] at failed
    contradiction
  | case7 point mark c text char there dark digit noPoint isMark signed c' reported ih =>
    obtain ⟨isMark, rfl⟩ := isMark
    obtain ⟨marks, kept, same, row⟩ := keepSign_eq c text isMark digit point
    rw [kept, Except.ok.injEq] at reported
    subst reported
    have part : reached point true = .exponent := rfl
    rw [ih, run_ahead_of_dark there dark, row, part, same, text_append, pass_append,
      List.append_assoc]
  | case8 point mark c text char there dark digit noPoint noMark mishap failed =>
    rw [stray_move] at failed
    contradiction
  | case9 point mark c text char there dark digit noPoint noMark c' reported ih =>
    rw [stray_move, Except.ok.injEq] at reported
    subst reported
    have step := next?_reached_stray digit noPoint noMark
    have part : (reached point mark).afterStray = reached point mark := by
      cases point <;> cases mark <;> rfl
    rw [ih, ahead_passMark, run_ahead_of_dark there dark, decimalMarks_cons_stray step, part,
      pass_cons]
    rfl

/-! ## Strings and comments -/

/-- Over a number of characters that belong to the token, with these reports. -/
def moveOver (c : Cursor) (length : Nat) (reports : List Diagnostic) : Cursor where
  source := c.source
  pos := c.pos + length
  lastPos := c.pos + length
  diagnostics := c.diagnostics ++ reports

theorem move_commit_eq (c : Cursor) : c.move.commit = c.moveOver 1 [] := by
  simp [moveOver, move, commit]

theorem move_move_commit_eq (c : Cursor) : c.move.move.commit = c.moveOver 2 [] := by
  simp [moveOver, move, commit]

theorem moveOver_moveOver (c : Cursor) (length length' : Nat) (reports : List Diagnostic) :
    (c.moveOver length []).moveOver length' reports = c.moveOver (length + length') reports := by
  simp [moveOver, Nat.add_assoc]

/-- A construct that is left open is reported from its beginning to the cursor. -/
theorem report_cover (c : Cursor) (kind : DiagnosticKind) (char : Char) {start : Nat}
    (before : start ≤ c.pos) : c.report kind char start c.pos =
      .ok { c with diagnostics := c.diagnostics ++
        [⟨kind, char.toString, Span.cover start (c.pos - start)⟩] } := by
  rw [report_eq c (Int.ofNat_le.mpr before)]
  simp only [Span.cover, Except.ok.injEq, Cursor.mk.injEq, true_and]
  congr 4
  omega

/-- What a string comes to that has been read up to the cursor and has this body ahead. -/
def strung (quote : Char) (start : Nat) (c : Cursor) (value raw : List Char) (b : StringBody) :
    (List Char × List Char) × Cursor :=
  ((value ++ b.value, raw ++ c.ahead.take b.length),
    c.moveOver b.length (if b.closed then [] else
      [⟨.unterminatedString, quote.toString, Span.cover start (c.pos + b.length - start)⟩]))

theorem strung_moveOver (quote : Char) (start : Nat) {c : Cursor} {front : List Char}
    (value raw : List Char) (decoded : Char) (b : StringBody)
    (ahead : c.ahead = front ++ (c.moveOver front.length []).ahead) :
    strung quote start (c.moveOver front.length []) (value ++ [decoded]) (raw ++ front) b =
      strung quote start c value raw (b.cons decoded front.length) := by
  have chars : c.ahead.take (front.length + b.length) =
      front ++ (c.moveOver front.length []).ahead.take b.length := by
    rw [List.take_add, ahead, List.take_left, List.drop_left]
  simp only [strung, StringBody.cons, chars, moveOver_moveOver, List.append_assoc, List.singleton_append]
  rw [← Nat.add_assoc]
  rfl

theorem stringLoop_eq (quote : Char) (start : Nat) (c : Cursor) (value raw : List Char)
    (before : start ≤ c.pos) (committed : c.lastPos = c.pos) :
    c.stringLoop quote start value raw =
      .ok (strung quote start c value raw (stringBody quote c.ahead)) := by
  generalize begins : (start : Int) = first
  fun_induction stringLoop quote first c value raw with
  | case1 c value raw nothing =>
    subst begins
    rw [report_cover c _ _ before, ahead_eq_nil nothing]
    simp [strung, stringBody, moveOver, committed, ok_bind]
  | case2 c value raw nothing there ih =>
    have last : c.ahead = ['\\'] := by rw [ahead_eq_cons there, ahead_eq_nil nothing]
    have none : c.move.commit.ahead = [] := ahead_eq_nil nothing
    rw [ih (Nat.le_succ_of_le before) rfl, none, last]
    simp [strung, stringBody, last, move_commit_eq, moveOver]
  | case3 c value raw escaped behind there ih =>
    have later : start ≤ c.pos + 2 := Nat.le_add_right_of_le before
    have ahead : c.ahead = ['\\', escaped] ++ (c.moveOver 2 []).ahead := by
      rw [ahead_eq_cons there, ahead_eq_cons behind]
      rfl
    rw [ih later rfl, move_move_commit_eq, ahead]
    exact congrArg Except.ok (strung_moveOver quote start value raw (unescape escaped) _ ahead)
  | case4 c value raw there plain =>
    have ahead := ahead_eq_cons there
    rw [ahead, stringBody_cons plain, if_pos rfl]
    simp [strung, ahead, move_commit_eq]
  | case5 c value raw char there plain other ih =>
    have ahead : c.ahead = [char] ++ (c.moveOver 1 []).ahead := ahead_eq_cons there
    rw [ih (Nat.le_succ_of_le before) rfl, move_commit_eq, ahead, List.singleton_append,
      stringBody_cons plain, if_neg other]
    exact congrArg Except.ok (strung_moveOver quote start value raw char _ ahead)

theorem lineLoop_eq (c : Cursor) :
    c.lineLoop = { c with pos := c.pos + lineCommentLength c.ahead } := by
  fun_induction lineLoop c with
  | case1 c nothing =>
    rw [ahead_eq_nil nothing]
    rfl
  | case2 c char there ends =>
    rw [ahead_eq_cons there, lineCommentLength, if_pos ends]
    rfl
  | case3 c char there inner ih =>
    rw [ih, ahead_eq_cons there, lineCommentLength, if_neg inner]
    simp [move, Nat.add_assoc]

theorem blockLoop_eq (start : Nat) (c : Cursor) (before : start ≤ c.pos) :
    c.blockLoop start =
      .ok { c with
        pos := c.pos + (blockComment c.ahead).1
        diagnostics := c.diagnostics ++ if (blockComment c.ahead).2 then [] else
          [⟨.unterminatedComment, "*", Span.cover start
            (c.pos + (blockComment c.ahead).1 - start)⟩] } := by
  generalize begins : (start : Int) = first
  fun_induction blockLoop first c with
  | case1 c nothing =>
    subst begins
    rw [report_cover c _ _ before, ahead_eq_nil nothing]
    simp [blockComment]
  | case2 c char there ends =>
    obtain ⟨rfl, slash⟩ := ends
    rw [ahead_eq_cons there, ahead_eq_cons slash, blockComment]
    simp [move]
  | case3 c char there inner ih =>
    have open_ : ∀ rest, char = '*' → c.move.ahead = '/' :: rest → False := by
      intro rest star slash
      exact inner ⟨star, by rw [peek_zero, slash]; rfl⟩
    rw [ih (Nat.le_succ_of_le before), ahead_eq_cons there, blockComment]
    · generalize blockComment c.move.ahead = body
      simp [move, Nat.add_assoc]
    · exact open_

end Cursor

end ScriptLexer
