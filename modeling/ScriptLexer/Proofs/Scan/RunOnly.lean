import ScriptLexer.Proofs.Scan.Reads

/-
  Constructs that end with the run they begin, at the latest: all but strings and comments. They
  look no further than this run, so texts with the same run ahead hold the same one
  (`Construct.Reads.of_run_eq`).
-/

namespace ScriptLexer

/-! ## Readers -/

theorem decimalRun_congr (head : Char) {rest rest' : List Char} (same : run rest = run rest') :
    decimalRun head rest = decimalRun head rest' := by
  have goes (text : List Char) := any_head?_run (fun c => not_isBlank_of_continues (c := c)) text
  rw [decimalRun, decimalRun, ← goes rest, ← goes rest', same]

theorem readDecimal_congr (head : Char) {rest rest' : List Char} (same : run rest = run rest') :
    readDecimal head rest = readDecimal head rest' := by
  simp only [readDecimal, decimalRun_congr head same]

theorem readLegacyDecimal_congr (head : Char) {rest rest' : List Char}
    (same : run rest = run rest') : readLegacyDecimal head rest = readLegacyDecimal head rest' := by
  simp only [readLegacyDecimal, decimalRun_congr head same]

theorem readWord_congr (head : Char) {rest rest' : List Char} (same : run rest = run rest') :
    readWord head rest = readWord head rest' := by
  simp only [readWord, wordMarks, same]

theorem readRadix_congr (radix : Radix) {rest rest' : List Char} (same : run rest = run rest') :
    readRadix radix rest = readRadix radix rest' := by
  simp only [readRadix, same]

theorem readLegacyOctal_congr {rest rest' : List Char} (same : run rest = run rest') :
    readLegacyOctal rest = readLegacyOctal rest' := by
  simp only [readLegacyOctal, same]

namespace Construct

/-- The construct is neither a string nor a comment, which have an end of their own. -/
def EndsWithRun (k : Construct) : Prop :=
  k.kind ≠ .string ∧ k.kind ≠ .lineComment ∧ k.kind ≠ .blockComment

instance (k : Construct) : Decidable k.EndsWithRun := inferInstanceAs (Decidable (_ ∧ _ ∧ _))

theorem readSymbol_endsWithRun (s : Symbol) : (readSymbol s).EndsWithRun := by
  cases s <;> exact ⟨nofun, nofun, nofun⟩

/-! ## Two characters that begin something longer -/

/-- The first two characters of a comment, or of a decimal that begins with its point. -/
inductive LongerStart : List Char → Prop
  | lineComment : LongerStart ['/', '/']
  | blockComment : LongerStart ['/', '*']
  | pointDecimal {next : Char} (digit : next.isDigit = true) : LongerStart ['.', next]

theorem LongerStart.forall_mem {p : Char → Prop} (slash : p '/') (star : p '*') (point : p '.')
    (digit : ∀ c : Char, c.isDigit = true → p c) {l : List Char} (h : LongerStart l) :
    ∀ c ∈ l, p c := by
  cases h <;> rw [List.forall_mem_cons, List.forall_mem_singleton]
  case lineComment => exact ⟨slash, slash⟩
  case blockComment => exact ⟨slash, star⟩
  case pointDecimal isDigit => exact ⟨point, digit _ isDigit⟩

theorem LongerStart.not_isBlank {l : List Char} (h : LongerStart l) :
    ∀ c ∈ l, isBlank c = false :=
  h.forall_mem (by decide) (by decide) (by decide) fun _ => not_isBlank_of_isDigit

theorem beginsLonger_iff {text : List Char} :
    BeginsLonger text ↔ ∃ l, LongerStart l ∧ l <+: text := by
  constructor
  · rintro (_ | _ | digit)
    · exact ⟨_, .lineComment, List.prefix_append _ _⟩
    · exact ⟨_, .blockComment, List.prefix_append _ _⟩
    · exact ⟨_, .pointDecimal digit, List.prefix_append _ _⟩
  · rintro ⟨l, start, behind, rfl⟩
    cases start with
    | lineComment => exact .lineComment
    | blockComment => exact .blockComment
    | pointDecimal digit => exact .pointDecimal digit

theorem beginsLonger_congr {text text' : List Char} (same : run text = run text') :
    BeginsLonger text ↔ BeginsLonger text' := by
  have byRun (text : List Char) : BeginsLonger text ↔ BeginsLonger (run text) := by
    obtain ⟨more, e, boundary⟩ := exists_run text
    rw [beginsLonger_iff, beginsLonger_iff]
    refine exists_congr fun l => and_congr_right fun start => ?_
    conv_lhs => rw [e]
    exact Symbol.prefix_append_iff start.not_isBlank boundary
  rw [byRun text, byRun text', same]

/-! ## What is read -/

/-- Texts with the same run ahead hold the same construct, if it ends with the run. -/
theorem Reads.of_run_eq {head : Char} {rest rest' : List Char} {k : Construct}
    (reads : Reads head rest k) (same : run rest = run rest') (ends : k.EndsWithRun) :
    Reads head rest' k := by
  have headDark := reads.not_isBlank
  cases reads with
  | string => exact absurd rfl ends.1
  | decimal digit nonzero =>
    rw [readDecimal_congr head same]
    exact .decimal digit nonzero
  | radix named =>
    have dark := not_isBlank_of_isIdentStart (Radix.of_ofLetter? named)
    obtain ⟨rest', rfl, behind⟩ := exists_cons_of_run_eq dark same
    rw [readRadix_congr _ behind]
    exact .radix named
  | legacyDecimal beyond =>
    have dark := not_isBlank_of_beyond_octal beyond
    obtain ⟨rest', rfl, behind⟩ := exists_cons_of_run_eq dark same
    rw [readLegacyDecimal_congr _ behind]
    exact .legacyDecimal beyond
  | legacyOctal octal =>
    have dark := not_isBlank_of_isDigit (isDigit_of_isOctalDigit octal)
    rw [readLegacyOctal_congr same]
    obtain ⟨rest', rfl, -⟩ := exists_cons_of_run_eq dark same
    exact .legacyOctal octal
  | zeroPoint digit =>
    rw [readDecimal_congr _ same]
    obtain ⟨more, rfl, behind⟩ := exists_cons_of_run_eq (by decide) same
    obtain ⟨rest', rfl, -⟩ := exists_cons_of_run_eq (not_isBlank_of_isDigit digit) behind
    exact .zeroPoint digit
  | zero boundary => exact .zero (run_eq_nil_iff.mp (same ▸ run_eq_nil boundary))
  | zeroBefore unnamed nonDigit noFraction dark =>
    obtain ⟨rest', rfl, behind⟩ := exists_cons_of_run_eq dark same
    refine .zeroBefore unnamed nonDigit (fun point => ?_) dark
    have digits (text : List Char) := any_head?_run (fun c => not_isBlank_of_isDigit (c := c)) text
    rw [← digits, ← behind, digits]
    exact noFraction point
  | word start =>
    rw [readWord_congr _ same]
    exact .word start
  | pointDecimal digit =>
    rw [readDecimal_congr _ same]
    obtain ⟨rest', rfl, -⟩ := exists_cons_of_run_eq (not_isBlank_of_isDigit digit) same
    exact .pointDecimal digit
  | lineComment => exact absurd rfl ends.2.1
  | blockComment => exact absurd rfl ends.2.2
  | symbol longest shorter =>
    have same : run (head :: rest) = run (head :: rest') := by
      rw [run_cons headDark, run_cons headDark, same]
    exact .symbol ((Symbol.isLongest_congr same).mp longest)
      (mt (beginsLonger_congr same).mpr shorter)

end Construct

end ScriptLexer
