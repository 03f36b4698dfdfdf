import ScriptLexer.Proofs.Number.Nearest
import ScriptLexer.Proofs.Cursor.Conversion
import ScriptLexer.Proofs.Scan.Faithful
import ScriptLexer.Proofs.Scan.Placed

/-
  Numbers of other bases among strays. The digits of the base in a run make up the number, whatever
  stands between them; the token ends with the last digit, and each other character is reported
  before the number as a whole is (`Scan.ofText_radix`). A number is reported for its lack of
  digits in no other way (`Construct.Reads.digitless`).
-/

namespace ScriptLexer

/-! ## Rows of a base -/

namespace Radix

variable (radix : Radix)

theorem text_map_mark (text : List Char) :
    Mark.text (text.map radix.mark) = text.filter radix.isDigit := radix.mark_sortsBy.text_map text

/-- The token goes up to the last digit. -/
theorem extent_map_mark (text : List Char) :
    Mark.extent (text.map radix.mark) = (text.rdropWhile fun c => !radix.isDigit c).length :=
  radix.mark_sortsBy.extent_map text

/-- The reports on the characters of a run that are no digits of the base, from an offset on. -/
def rejections (first : Nat) (text : List Char) : List Diagnostic :=
  ((text.zipIdx first).filter fun (c, _) => !radix.isDigit c).map fun (c, i) =>
    ⟨if c = '.' then .unexpectedNumber else .invalidOrUnexpectedToken, c.toString, Span.cover i 1⟩

theorem faults_map_mark (start first : Nat) (text : List Char) :
    (Mark.faults first (text.map radix.mark)).map (·.diagnostic start) =
      radix.rejections (start + first) text := radix.mark_sortsBy.faults_map start first text

end Radix

/-! ## Numbers with a base -/

/-- The two forms of a number with a base: behind a zero and a letter that names it, or behind a
zero alone, which stands for the octal base. -/
inductive RadixForm : List Char → Radix → List Char → Prop
  | named {letter : Char} {radix : Radix} (rest : List Char)
    (named : Radix.ofLetter? letter = some radix) : RadixForm ['0', letter] radix rest
  | legacy {digit : Char} (rest : List Char) (octal : isOctalDigit digit = true) :
    RadixForm ['0'] .octal (digit :: rest)

/-- What is reported of a number as a whole: that it has no digits, or its notation of old. -/
def RadixForm.reports (front digits : List Char) (span : Span) : List Diagnostic :=
  (if digits = [] then [⟨.invalidNumericLiteral, "0", span⟩] else []) ++
    if front = ['0'] then [⟨.legacyOctalLiteral, "0", span⟩] else []

section Form

variable {front rest : List Char} {radix : Radix}

/-- The construct of a number with a base. -/
theorem RadixForm.exists_reads (form : RadixForm front radix rest) (start : Nat) :
    ∃ first more k own, front ++ rest = first :: more ∧ Construct.Reads first more k ∧
      k.IsRow (first :: more) front ((run rest).map radix.mark) own ∧
      (∀ f ∈ own, k.Covers f) ∧
      k.value = .number (radix.value (Mark.text ((run rest).map radix.mark))) ∧
      own.map (·.diagnostic start) =
        reports front ((run rest).filter radix.isDigit) (k.token start).span := by
  cases form with
  | @named letter _ _ named =>
    refine ⟨_, _, _, _, rfl, .radix named, readRadix_isRow radix letter rest,
      missingDigits_covers _ _, rfl, ?_⟩
    have unlike : ¬['0', letter] = ['0'] := by simp
    rw [missingDigits, reports, Radix.text_map_mark, if_neg unlike, List.append_nil]
    cases (run rest).filter radix.isDigit <;> rfl
  | @legacy digit rest octal =>
    have some : (run (digit :: rest)).filter Radix.octal.isDigit ≠ [] := by
      rw [run_cons (not_isBlank_of_isDigit (isDigit_of_isOctalDigit octal)),
        List.filter_cons_of_pos (by exact octal)]
      exact List.cons_ne_nil _ _
    refine ⟨_, _, _, _, rfl, .legacyOctal octal, readLegacyOctal_isRow (digit :: rest), ?_, rfl, ?_⟩
    · rw [List.forall_mem_singleton]
      exact ⟨Construct.size_pos _, Nat.le_of_eq (Nat.zero_add _)⟩
    · rw [reports, if_neg some, if_pos rfl]
      rfl

end Form

/-! ## Numbers without digits -/

/-- A mark is never about digits that a number lacks. -/
theorem Construct.IsRow.mem_own {k : Construct} {text front : List Char} {marks : List Mark}
    {own : List Fault} (row : k.IsRow text front marks own) (quotes : ∀ m ∈ marks, m.Quotes)
    {f : Fault} (mem : f ∈ k.faults) (kind : f.kind = .invalidNumericLiteral) : f ∈ own := by
  rw [row.faults, List.mem_append, Mark.mem_faults] at mem
  rcases mem with ⟨i, m, kind', at_i, fault, rfl⟩ | mem
  · have quotes := quotes m (List.mem_of_getElem? at_i) kind' fault
    rw [show kind' = _ from kind] at quotes
    contradiction
  · exact mem

/-- Only a number that names its base and then has no digit of it is reported for that. -/
theorem Construct.Reads.digitless {head : Char} {rest : List Char} {k : Construct}
    (reads : Reads head rest k) {f : Fault} (mem : f ∈ k.faults)
    (kind : f.kind = .invalidNumericLiteral) :
    ∃ letter radix more, head :: rest = '0' :: letter :: more ∧
      Radix.ofLetter? letter = some radix ∧ (run more).filter radix.isDigit = [] ∧
      k.kind = .number ∧ f = ⟨.invalidNumericLiteral, '0', 0, k.size⟩ := by
  have dark := reads.not_isBlank
  have number : k.kind = .number := ((reads.blames f mem).of_isOfNumeral (kind ▸ rfl)).1
  cases reads with
  | @radix letter rest radix named =>
    have own := (readRadix_isRow radix letter rest).mem_own (radix.marks_quotes _) mem kind
    unfold missingDigits at own
    split at own
    · next empty =>
      rw [Radix.text_map_mark, List.isEmpty_iff] at empty
      exact ⟨letter, radix, rest, rfl, named, empty, rfl, List.mem_singleton.mp own⟩
    · contradiction
  | decimal _ _ | zeroPoint _ | pointDecimal _ =>
    have own := (readDecimal_isRow _ dark).mem_own (decimalRun_quotes _ _) mem kind
    contradiction
  | @legacyDecimal head rest beyond =>
    have row := readLegacyDecimal_isRow rest (not_isBlank_of_beyond_octal beyond)
    have own := row.mem_own (decimalRun_quotes head rest) mem kind
    rw [List.mem_singleton.mp own] at kind
    exact DiagnosticKind.noConfusion kind
  | @legacyOctal head rest octal =>
    have row := readLegacyOctal_isRow (head :: rest)
    have own := row.mem_own (Radix.octal.marks_quotes _) mem kind
    rw [List.mem_singleton.mp own] at kind
    exact DiagnosticKind.noConfusion kind
  | zero _ => contradiction
  | zeroBefore _ _ _ _ =>
    rw [List.mem_singleton.mp mem] at kind
    exact DiagnosticKind.noConfusion kind
  | @symbol _ _ s _ _ => exact absurd number s.kind_ne.1
  | string _ | word _ | lineComment | blockComment => exact TokenKind.noConfusion number

namespace Scan

/-- The token that a report of missing digits is about: it names its base and has no digit of it. -/
def Digitless (s : Scan) (offset : Nat) (text : List Char) (d : Diagnostic) : Prop :=
  ∃ i letter radix rest, text.drop i = '0' :: letter :: rest ∧
    Radix.ofLetter? letter = some radix ∧ (run rest).filter radix.isDigit = [] ∧
    ∃ t ∈ s.tokens, t.kind = .number ∧ t.span.start = ((offset + i : Nat) : Int) ∧ d.span = t.span

theorem Digitless.behind {s : Scan} {offset n : Nat} {text : List Char} {d : Diagnostic}
    (h : s.Digitless (offset + n) (text.drop n) d) (front : List Token)
    (diagnostics : List Diagnostic) (stop : Option (Nat × Char)) :
    Digitless ⟨front ++ s.tokens, diagnostics, stop⟩ offset text d := by
  obtain ⟨i, letter, radix, rest, ahead, named, none, t, mem, number, start, span⟩ := h
  rw [List.drop_drop] at ahead
  rw [Nat.add_assoc] at start
  exact ⟨n + i, letter, radix, rest, ahead, named, none, t, List.mem_append_right _ mem, number,
    start, span⟩

theorem startingAt_digitless (offset : Nat) (text : List Char) :
    ∀ d ∈ (startingAt offset text).diagnostics, d.kind = .invalidNumericLiteral →
      (startingAt offset text).Digitless offset text d := by
  refine walk (P := fun offset text s => ∀ d ∈ s.diagnostics, d.kind = .invalidNumericLiteral →
    s.Digitless offset text d) ?nil ?blank ?stop ?construct offset text
  case nil =>
    intro offset
    exact List.forall_mem_nil _
  case blank =>
    intro offset c rest s _ ih d mem kind
    exact @Digitless.behind s offset 1 (c :: rest) d (ih d mem kind) [] _ _
  case stop =>
    intro offset c rest _ _ d mem kind
    rw [stopped, List.mem_singleton] at mem
    rw [mem] at kind
    exact DiagnosticKind.noConfusion kind
  case construct =>
    intro offset c rest k s reads ih d mem kind
    rw [cons, List.mem_append] at mem
    rcases mem with mem | mem
    · obtain ⟨f, fault, rfl⟩ := List.mem_map.mp mem
      obtain ⟨letter, radix, more, e, named, none, number, rfl⟩ := reads.digitless fault kind
      exact ⟨0, letter, radix, more, e, named, none, k.token offset, List.mem_cons_self, number,
        rfl, rfl⟩
    · exact (ih d mem kind).behind [k.token offset] _ _

/-! ## Numbers of a source text -/

/-- How a scan reads a number with a base that begins at `start` with `front`: by the digits of
the base in the stretch behind that. -/
structure ReadsRadix (s : Scan) (t : Token) (start : Nat) (front : List Char) (radix : Radix)
    (stretch : List Char) : Prop where
  value : ∃ x, t.value = .number x ∧
    Binary64.IsDoubleOf (wholeOfDigits radix.base (stretch.filter radix.isDigit)) x
  digitless : stretch.filter radix.isDigit = [] → t.value = .number .zero
  stop : t.span.stop = ((start + (front.length +
    (stretch.rdropWhile fun c => !radix.isDigit c).length) : Nat) : Int)
  diagnostics : s.diagnosticsIn start (front.length + stretch.length) =
    radix.rejections (start + front.length) stretch ++
      RadixForm.reports front (stretch.filter radix.isDigit) t.span

/-- Whatever stands in the run of a number with a base, its digits denote the number, to the
nearest double; the token ends with the last of them. All other characters are reported in their
order, and then a number without digits or in the notation of old is. Nothing else is ever reported
for its lack of digits. -/
theorem ofText_radix {source : String} {t : Token} {start : Nat} {front rest : List Char}
    {radix : Radix} (mem : t ∈ (ofText source).tokens) (number : t.kind = .number)
    (begins : t.span.start = start) (ahead : source.toList.drop start = front ++ rest)
    (form : RadixForm front radix rest) :
    (ofText source).ReadsRadix t start front radix (run rest) ∧
      ∀ d ∈ (ofText source).diagnostics, d.kind = .invalidNumericLiteral →
        (ofText source).Digitless 0 source.toList d := by
  refine ⟨?_, startingAt_digitless 0 source.toList⟩
  obtain ⟨first, more, k, own, e, reads, row, covers, value, reports⟩ := form.exists_reads start
  rw [e] at ahead
  obtain ⟨rfl, diagnostics⟩ := ofText_number mem number begins ahead reads (row.contained covers)
  rw [Radix.text_map_mark] at value
  have taken : k.taken = front.length + (run rest).length := by
    rw [row.taken, List.length_map]
  constructor
  case value => exact ⟨_, value, Binary64.ofRatio_one_isDoubleOf _⟩
  case digitless =>
    intro none
    rw [none, Cursor.radix_value_nil] at value
    exact value
  case stop =>
    rw [← Radix.extent_map_mark, ← row.size]
    rfl
  case diagnostics =>
    rw [← taken, diagnostics, Construct.diagnostics, row.faults, List.map_append, reports,
      Radix.faults_map_mark]

/-- Two digits among strays, one of which is a digit of another base. -/
theorem ofText_radix_stray :
    (ofText "a 0b1.02_ c").ReadsRadix
      ⟨.number, Span.cover 2 5, .number (Radix.binary.value "10".toList), none⟩ 2 "0b".toList
      .binary "1.02_".toList :=
  (@ofText_radix "a 0b1.02_ c" _ 2 "0b".toList "1.02_ c".toList .binary (by decide +kernel) rfl rfl
    (by decide +kernel) (.named _ rfl)).1

end Scan

end ScriptLexer
