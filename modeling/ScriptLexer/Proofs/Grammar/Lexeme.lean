import ScriptLexer.Proofs.Grammar.Decimal
import ScriptLexer.Proofs.Grammar.Enclosed

/-
  The lexemes of faultless sources: for each class which texts belong to it, what may follow, and
  what the token of it stands for (`Lexeme`). The grammar is stated without the readers; here it is
  shown reader by reader when there is no fault, and that the construct then spells a lexeme
  (`Construct.Spells`).
-/

namespace ScriptLexer

/-- `text` is a decimal of at least two characters as it may stand in a source. -/
inductive DecimalLexeme (text : List Char) : Prop
  | whole (numeral : IsNumeral text) (long : 2 ≤ text.length) (last : text.getLast? ≠ some '.')
    (start : (∃ head rest, text = head :: rest ∧ head.isDigit = true ∧ head ≠ '0') ∨
      ∃ next rest, text = '0' :: '.' :: next :: rest ∧ next.isDigit = true)
  | point (numeral : IsPointNumeral text)

/-- `text` is a lexeme when `follow` comes behind it: the kind, the value and the kept source text
of its token. -/
inductive Lexeme : List Char → List Char → TokenKind → TokenValue → Option String → Prop
  | word {head : Char} {tail follow : List Char} (start : isIdentStart head = true)
    (part : ∀ c ∈ tail, isIdentPart c = true) (boundary : AtBoundary follow) :
    Lexeme (head :: tail) follow .word
      (.word (Word.ofText (String.ofList (head :: tail)))) none
  | zero {follow : List Char} (boundary : AtBoundary follow) :
    Lexeme ['0'] follow .number (.number .zero) none
  | radix {letter : Char} {digits follow : List Char} {radix : Radix}
    (named : Radix.ofLetter? letter = some radix) (some : digits ≠ [])
    (all : ∀ c ∈ digits, radix.isDigit c = true) (boundary : AtBoundary follow) :
    Lexeme ('0' :: letter :: digits) follow .number (.number (radix.value digits)) none
  | digit {head : Char} {follow : List Char} (digit : head.isDigit = true) (nonzero : head ≠ '0')
    (ends : ∀ c ∈ follow.head?, ¬(c.isDigit = true ∨ c = '.' ∨ c = 'e' ∨ c = 'E')) :
    Lexeme [head] follow .number (.number (decimalValue [head])) none
  | decimal {text follow : List Char} (decimal : DecimalLexeme text)
    (boundary : AtBoundary follow) :
    Lexeme text follow .number (.number (decimalValue text)) none
  | string {quote : Char} {body value follow : List Char} (opening : quote = '"' ∨ quote = '\'')
    (inner : StringText quote body value) :
    Lexeme (quote :: (body ++ [quote])) follow .string (.text (String.ofList value))
      (some (String.ofList (quote :: (body ++ [quote]))))
  | lineComment {body follow : List Char} {terminator : Char}
    (inner : ∀ c ∈ body, isLineTerminator c = false)
    (ends : isLineTerminator terminator = true) :
    Lexeme ('/' :: '/' :: (body ++ [terminator])) follow .lineComment .none none
  | lastLineComment {body : List Char} (inner : ∀ c ∈ body, isLineTerminator c = false) :
    Lexeme ('/' :: '/' :: body) [] .lineComment .none none
  | blockComment {body follow : List Char} (inner : Unclosed body) :
    Lexeme ('/' :: '*' :: (body ++ ['*', '/'])) follow .blockComment .none none
  | symbol {s : Symbol} {follow : List Char} (longest : s.IsLongest (s.text.toList ++ follow))
    (shorter : ¬Construct.BeginsLonger (s.text.toList ++ follow)) :
    Lexeme s.text.toList follow s.kind s.value none

namespace Construct

/-- The construct is without a fault and makes a token over `text` of this kind, value and kept
source text. -/
structure Spells (k : Construct) (text : List Char) (kind : TokenKind) (value : TokenValue)
    (raw : Option String) : Prop where
  faultless : k.faults = []
  size : k.size = text.length
  kind : k.kind = kind
  value : k.value = value
  raw : k.raw = raw

/-! ## Words and numbers -/

theorem IsRow.faultless_iff {k : Construct} {text front : List Char} {marks : List Mark}
    {own : List Fault} (row : k.IsRow text front marks own) :
    k.faults = [] ↔ (∀ m ∈ marks, m.fault = none) ∧ own = [] := by
  rw [row.faults, List.append_eq_nil_iff, Mark.faults_eq_nil_iff]

/-- All of a row without a fault is kept. -/
theorem IsRow.text_eq {k : Construct} {text front : List Char} {marks : List Mark}
    {own : List Fault} (row : k.IsRow text front marks own)
    (faultless : ∀ m ∈ marks, m.fault = none) : Mark.text marks = marks.map (·.char) :=
  Mark.text_eq_of_kept fun m mem => Mark.kept_of_fault_eq_none (row.justified m mem)
    (faultless m mem)

theorem IsRow.spells {k : Construct} {text front : List Char} {marks : List Mark}
    {own : List Fault} (row : k.IsRow text front marks own)
    (faultless : ∀ m ∈ marks, m.fault = none) (none : own = []) :
    k.Spells (front ++ marks.map (·.char)) k.kind k.value k.raw where
  faultless := row.faultless_iff.mpr ⟨faultless, none⟩
  size := by
    have kept : ∀ m ∈ marks, m.kept = true := fun m mem =>
      Mark.kept_of_fault_eq_none (row.justified m mem) (faultless m mem)
    rw [row.size, Mark.extent_eq_of_kept kept, List.length_append, List.length_map]
  kind := rfl
  value := rfl
  raw := rfl

theorem forall_mem_map_run {f : Char → Mark} {p : Char → Bool}
    (h : ∀ c, (f c).fault = none ↔ p c = true) (text : List Char) :
    (∀ m ∈ text.map f, m.fault = none) ↔ ∀ c ∈ text, p c = true := by
  rw [List.forall_mem_map]
  exact forall₂_congr fun c _ => h c

theorem wordMarks_faultless_iff {head : Char} {rest : List Char} :
    (∀ m ∈ wordMarks head rest, m.fault = none) ↔ ∀ c ∈ run rest, isIdentPart c = true := by
  rw [wordMarks, List.forall_mem_cons, forall_mem_map_run fun c => wordMark_fault_eq_none_iff]
  exact and_iff_right rfl

theorem readWord_faultless_iff {head : Char} {rest : List Char}
    (start : isIdentStart head = true) :
    (readWord head rest).faults = [] ↔ ∀ c ∈ run rest, isIdentPart c = true := by
  have row := readWord_isRow rest (not_isBlank_of_isIdentStart start)
  rw [row.faultless_iff, wordMarks_faultless_iff, and_iff_left rfl]

theorem readWord_spells {head : Char} {rest : List Char} (start : isIdentStart head = true)
    (part : ∀ c ∈ run rest, isIdentPart c = true) :
    (readWord head rest).Spells (head :: run rest) .word
      (.word (Word.ofText (String.ofList (head :: run rest)))) none := by
  have row := readWord_isRow rest (not_isBlank_of_isIdentStart start)
  have faultless : ∀ m ∈ wordMarks head rest, m.fault = none := wordMarks_faultless_iff.mpr part
  have chars : (wordMarks head rest).map (·.char) = head :: run rest := by
    rw [wordMarks, List.map_cons, map_char_map wordMark_char]
    rfl
  have spells := row.spells faultless rfl
  rw [chars] at spells
  refine ⟨spells.faultless, spells.size, rfl, ?_, rfl⟩
  show TokenValue.word (Word.ofText (String.ofList (Mark.text (wordMarks head rest)))) = _
  rw [row.text_eq faultless, chars]

theorem missingDigits_eq_nil_iff {k : Construct} {digits : List Char} :
    missingDigits k digits = [] ↔ digits ≠ [] := by
  unfold missingDigits
  split
  · next empty => simp_all
  · next some => simp_all

theorem readRadix_faultless_iff {radix : Radix} {rest : List Char} :
    (readRadix radix rest).faults = [] ↔
      run rest ≠ [] ∧ ∀ c ∈ run rest, radix.isDigit c = true := by
  have row := readRadix_isRow radix 'x' rest
  have marked := forall_mem_map_run (fun c => radix.mark_fault_eq_none_iff (c := c)) (run rest)
  rw [row.faultless_iff, missingDigits_eq_nil_iff, ← marked, and_comm]
  refine and_congr_left fun faultless => not_congr ?_
  rw [row.text_eq faultless, map_char_map radix.mark_char]

theorem readRadix_spells {radix : Radix} {rest : List Char} (letter : Char)
    (some : run rest ≠ []) (all : ∀ c ∈ run rest, radix.isDigit c = true) :
    (readRadix radix rest).Spells ('0' :: letter :: run rest) .number
      (.number (radix.value (run rest))) none := by
  have row := readRadix_isRow radix letter rest
  have faultless := (row.faultless_iff.mp (readRadix_faultless_iff.mpr ⟨some, all⟩))
  have spells := row.spells faultless.1 faultless.2
  rw [map_char_map radix.mark_char] at spells
  refine ⟨spells.faultless, spells.size, rfl, ?_, rfl⟩
  show TokenValue.number (radix.value (Mark.text ((run rest).map radix.mark))) = _
  rw [row.text_eq faultless.1, map_char_map radix.mark_char]

theorem readDecimal_faultless_iff {head : Char} {rest : List Char} (dark : isBlank head = false) :
    (readDecimal head rest).faults = [] ↔ ∀ m ∈ decimalRun head rest, m.fault = none := by
  rw [(readDecimal_isRow rest dark).faultless_iff, and_iff_left rfl]

theorem readDecimal_spells {head : Char} {rest : List Char} (dark : isBlank head = false)
    (faultless : ∀ m ∈ decimalRun head rest, m.fault = none) :
    (readDecimal head rest).Spells ((decimalRun head rest).map (·.char)) .number
      (.number (decimalValue ((decimalRun head rest).map (·.char)))) none := by
  have row := readDecimal_isRow rest dark
  have spells := row.spells faultless rfl
  refine ⟨spells.faultless, spells.size, rfl, ?_, rfl⟩
  show TokenValue.number (decimalValue (Mark.text (decimalRun head rest))) = _
  rw [row.text_eq faultless]

/-- A digit that no decimal goes on behind. -/
theorem readDecimal_spells_digit {head : Char} {rest : List Char} (digit : head.isDigit = true)
    (ends : ∀ c ∈ rest.head?, ¬continuesDecimal c = true) :
    (readDecimal head rest).Spells [head] .number (.number (decimalValue [head])) none := by
  have alone := decimalRun_of_ends ends head
  have faultless : ∀ m ∈ decimalRun head rest, m.fault = none := by
    rw [alone, List.forall_mem_singleton]
    rfl
  have spells := readDecimal_spells (not_isBlank_of_isDigit digit) faultless
  rw [alone] at spells
  exact spells

/-- A decimal that goes on behind its first character, up to the next blank. -/
theorem readDecimal_spells_run {head next : Char} {rest : List Char}
    (dark : isBlank head = false) (goes : continuesDecimal next = true)
    (faultless : ∀ m ∈ decimalRun head (next :: rest), m.fault = none) :
    (readDecimal head (next :: rest)).Spells (head :: run (next :: rest)) .number
      (.number (decimalValue (head :: run (next :: rest)))) none := by
  have spells := readDecimal_spells dark faultless
  rw [decimalRun_map_char_of_continues goes] at spells
  exact spells

theorem loneZero_spells : (loneZero []).Spells ['0'] .number (.number .zero) none where
  faultless := rfl
  size := rfl
  kind := rfl
  value := rfl
  raw := rfl

theorem not_faultless_of_own {k : Construct} {text front : List Char} {marks : List Mark}
    {f : Fault} (row : k.IsRow text front marks [f]) : k.faults ≠ [] := by
  intro faultless
  exact List.cons_ne_nil _ _ (row.faultless_iff.mp faultless).2

/-! ## Strings, comments and symbols -/

theorem readString_faultless_iff {quote : Char} {rest : List Char} :
    (readString quote rest).faults = [] ↔ (stringBody quote rest).closed = true := by
  unfold readString
  dsimp only
  split
  · next closed => simp [closed]
  · next opened => simp [opened]

theorem readString_spells {quote : Char} (unescaped : quote ≠ '\\') {body value : List Char}
    (inner : StringText quote body value) (follow : List Char) :
    (readString quote (body ++ quote :: follow)).Spells (quote :: (body ++ [quote])) .string
      (.text (String.ofList value)) (some (String.ofList (quote :: (body ++ [quote])))) := by
  have read := stringBody_eq unescaped inner follow
  have size : 1 + (body.length + 1) = (quote :: (body ++ [quote])).length := by
    rw [List.length_cons, List.length_append, List.length_singleton, Nat.add_comm]
  have raw : (quote :: (body ++ quote :: follow)).take (quote :: (body ++ [quote])).length =
      quote :: (body ++ [quote]) := by
    have ahead : quote :: (body ++ quote :: follow) = quote :: (body ++ [quote]) ++ follow := by
      rw [List.cons_append, List.append_assoc, List.singleton_append]
    rw [ahead]
    exact List.take_left
  constructor
  case faultless =>
    rw [readString_faultless_iff, read]
  case size =>
    show 1 + (stringBody quote (body ++ quote :: follow)).length = _
    rw [read, size]
  case kind => rfl
  case value =>
    show TokenValue.text (String.ofList (stringBody quote (body ++ quote :: follow)).value) = _
    rw [read]
  case raw =>
    show some (String.ofList ((quote :: (body ++ quote :: follow)).take
      (1 + (stringBody quote (body ++ quote :: follow)).length))) = _
    rw [read, size, raw]

theorem readLineComment_spells {body text : List Char}
    (length : lineCommentLength body = text.length) :
    (readLineComment body).Spells ('/' :: '/' :: text) .lineComment .none none where
  faultless := rfl
  size := by
    show 2 + lineCommentLength body = text.length + 2
    rw [length, Nat.add_comm]
  kind := rfl
  value := rfl
  raw := rfl

theorem readBlockComment_faultless_iff {body : List Char} :
    (readBlockComment body).faults = [] ↔ (blockComment body).2 = true := by
  unfold readBlockComment
  dsimp only
  split
  · next closed => simp [closed]
  · next opened => simp [opened]

theorem readBlockComment_spells {body : List Char} (inner : Unclosed body)
    (follow : List Char) :
    (readBlockComment (body ++ '*' :: '/' :: follow)).Spells ('/' :: '*' :: (body ++ ['*', '/']))
      .blockComment .none none := by
  have read := blockComment_eq inner follow
  constructor
  case faultless => rw [readBlockComment_faultless_iff, read]
  case size =>
    show 2 + (blockComment (body ++ '*' :: '/' :: follow)).1 = _
    rw [read, List.length_cons, List.length_cons, List.length_append, Nat.add_comm]
    rfl
  case kind => rfl
  case value => rfl
  case raw => rfl

theorem readSymbol_spells (s : Symbol) :
    (readSymbol s).Spells s.text.toList s.kind s.value none where
  faultless := rfl
  size := String.length_toList.symm
  kind := rfl
  value := rfl
  raw := rfl

end Construct

end ScriptLexer
