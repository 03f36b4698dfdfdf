import ScriptLexer.Proofs.Cursor.Agreement
import ScriptLexer.Proofs.Scan.Seam
import ScriptLexer.Proofs.Scan.Walk

/-
  What diagnostics point at. A fault of a construct is about one of its characters, about a
  numeral as a whole, or about a string or comment that the text leaves open; each of these sorts
  has its own kinds (`Construct.Blames`). Along the scan this says where in the source a
  diagnostic lies, on which token, and that nothing comes behind an open end
  (`Scan.Faithful`, `Scan.ofText_diagnostics_faithful`).
-/

namespace ScriptLexer

/-! ## Sorts of diagnostics -/

namespace DiagnosticKind

/-- The kinds that are about a numeral as a whole. -/
def isOfNumeral : DiagnosticKind → Bool
  | legacyDecimalEscape | legacyOctalLiteral | invalidNumericLiteral => true
  | _ => false

/-- The kinds that are about a character in the run of a number. -/
def isOfDigit : DiagnosticKind → Bool
  | invalidOrUnexpectedToken | unexpectedNumber => true
  | _ => false

/-- The kinds that are about a string or comment without an end. -/
def isUnterminated : DiagnosticKind → Bool
  | unterminatedString | unterminatedComment => true
  | _ => false

theorem quotesChar_of_isOfDigit {kind : DiagnosticKind} (h : kind.isOfDigit = true) :
    kind.quotesChar = true := by
  revert h
  cases kind <;> decide

theorem not_isOfNumeral_of_quotesChar {kind : DiagnosticKind} (h : kind.quotesChar = true) :
    kind.isOfNumeral = false ∧ kind.isUnterminated = false := by
  revert h
  cases kind <;> decide

theorem not_quotesChar_of_isOfNumeral {kind : DiagnosticKind} (h : kind.isOfNumeral = true) :
    kind.quotesChar = false ∧ kind.isUnterminated = false := by
  revert h
  cases kind <;> decide

end DiagnosticKind

/-! ## Faults of marks -/

namespace Mark

/-- A fault of the mark is of a kind that quotes the character. -/
def Quotes (m : Mark) : Prop := ∀ kind ∈ m.fault, kind.quotesChar = true

theorem quotes_keep (c : Char) : (keep c).Quotes := nofun

theorem quotes_stray {kind : DiagnosticKind} (quotes : kind.quotesChar = true) (c : Char) :
    (stray kind c).Quotes := by
  intro kind' fault
  rw [stray, Option.mem_some_iff] at fault
  exact fault ▸ quotes

end Mark

theorem wordMark_quotes (c : Char) : (wordMark c).Quotes := by
  rcases wordMark_sortsBy.keep_or_stray c with e | e
  · exact e ▸ Mark.quotes_keep c
  · exact e ▸ Mark.quotes_stray rfl c

/-! ### Marks of numbers -/

/-- A fault of the mark is of a kind that is about a character in the run of a number. -/
def Mark.OfDigit (m : Mark) : Prop := ∀ kind ∈ m.fault, kind.isOfDigit = true

namespace Mark

theorem OfDigit.quotes {m : Mark} (h : m.OfDigit) : m.Quotes :=
  fun kind fault => DiagnosticKind.quotesChar_of_isOfDigit (h kind fault)

theorem ofDigit_keep (c : Char) : (keep c).OfDigit := nofun

theorem ofDigit_stray {kind : DiagnosticKind} (ofDigit : kind.isOfDigit = true) (c : Char) :
    (stray kind c).OfDigit := by
  intro kind' fault
  rw [stray, Option.mem_some_iff] at fault
  exact fault ▸ ofDigit

end Mark

theorem Radix.marks_ofDigit (radix : Radix) (text : List Char) :
    ∀ m ∈ text.map radix.mark, m.OfDigit := by
  refine List.forall_mem_map.mpr fun c _ => ?_
  rcases radix.mark_sortsBy.keep_or_stray c with e | e
  · exact e ▸ Mark.ofDigit_keep c
  · refine e ▸ Mark.ofDigit_stray ?_ c
    split <;> rfl

theorem decimalMarks_ofDigit (part : DecimalPart) (text : List Char) :
    ∀ m ∈ decimalMarks part text, m.OfDigit := by
  induction text generalizing part with
  | nil => exact nofun
  | cons c rest ih =>
    unfold decimalMarks
    split
    · rw [List.forall_mem_cons]
      refine ⟨?_, ih _⟩
      intro kind fault
      split at fault
      · rw [Option.mem_some_iff] at fault
        exact fault ▸ rfl
      · contradiction
    · rw [List.forall_mem_cons]
      exact ⟨Mark.ofDigit_stray rfl c, ih _⟩

theorem decimalRun_ofDigit (head : Char) (rest : List Char) :
    ∀ m ∈ decimalRun head rest, m.OfDigit := by
  unfold decimalRun
  split
  · rw [List.forall_mem_cons]
    exact ⟨Mark.ofDigit_keep head, decimalMarks_ofDigit _ _⟩
  · rw [List.forall_mem_singleton]
    exact Mark.ofDigit_keep head

theorem Radix.marks_quotes (radix : Radix) (text : List Char) :
    ∀ m ∈ text.map radix.mark, m.Quotes :=
  fun m mem => (radix.marks_ofDigit text m mem).quotes

theorem decimalRun_quotes (head : Char) (rest : List Char) :
    ∀ m ∈ decimalRun head rest, m.Quotes :=
  fun m mem => (decimalRun_ofDigit head rest m mem).quotes

/-! ## Faults of constructs -/

namespace Construct

/-- What a fault of a construct at the front of a text is about. -/
inductive Blames (k : Construct) (text : List Char) : Fault → Prop
  | char {kind : DiagnosticKind} {c : Char} {i : Nat} (quotes : kind.quotesChar = true)
    (there : text[i]? = some c) (dark : isBlank c = false) : Blames k text ⟨kind, c, i, 1⟩
  | numeral {kind : DiagnosticKind} (ofNumeral : kind.isOfNumeral = true)
    (number : k.kind = .number)
    (zero : kind = .invalidNumericLiteral → k.value = .number .zero) :
    Blames k text ⟨kind, '0', 0, k.size⟩
  | openString {quote : Char} (opening : quote = '"' ∨ quote = '\'')
    (there : text.head? = some quote) (string : k.kind = .string) (whole : k.size = text.length)
    (only : k.faults = [⟨.unterminatedString, quote, 0, k.size⟩]) :
    Blames k text ⟨.unterminatedString, quote, 0, k.size⟩
  | openComment (comment : k.kind = .blockComment) (whole : k.size = text.length)
    (only : k.faults = [⟨.unterminatedComment, '*', 0, k.size⟩]) :
    Blames k text ⟨.unterminatedComment, '*', 0, k.size⟩

theorem IsRow.blames {k : Construct} {text front : List Char} {marks : List Mark}
    {own : List Fault} (row : k.IsRow text front marks own) (quotes : ∀ m ∈ marks, m.Quotes)
    (blames : ∀ f ∈ own, k.Blames text f) : ∀ f ∈ k.faults, k.Blames text f := by
  intro f mem
  rw [row.faults, List.mem_append, Mark.mem_faults] at mem
  rcases mem with ⟨i, m, kind, at_i, fault, rfl⟩ | mem
  · have inRow := List.mem_of_getElem? at_i
    exact .char (quotes m inRow kind fault) (row.getElem?_ahead at_i) (row.dark m inRow)
  · exact blames f mem

theorem missingDigits_blames {k : Construct} {digits text : List Char} (number : k.kind = .number)
    (zero : digits = [] → k.value = .number .zero) :
    ∀ f ∈ missingDigits k digits, k.Blames text f := by
  intro f mem
  unfold missingDigits at mem
  split at mem
  · next empty =>
    rw [List.mem_singleton] at mem
    subst mem
    exact .numeral rfl number fun _ => zero (List.isEmpty_iff.mp empty)
  · contradiction

theorem readString_blames {quote : Char} (opening : quote = '"' ∨ quote = '\'')
    (rest : List Char) :
    ∀ f ∈ (readString quote rest).faults, (readString quote rest).Blames (quote :: rest) f := by
  intro f mem
  by_cases closed : (stringBody quote rest).closed = true
  · simp [readString, closed] at mem
  · have only : (readString quote rest).faults =
        [⟨.unterminatedString, quote, 0, (readString quote rest).size⟩] := if_neg closed
    have whole : (readString quote rest).size = (quote :: rest).length := by
      show 1 + (stringBody quote rest).length = rest.length + 1
      rw [stringBody_length_of_open closed, Nat.add_comm]
    rw [only, List.mem_singleton] at mem
    subst mem
    exact .openString opening rfl rfl whole only

theorem readBlockComment_blames (body : List Char) :
    ∀ f ∈ (readBlockComment body).faults,
      (readBlockComment body).Blames ('/' :: '*' :: body) f := by
  intro f mem
  by_cases closed : (blockComment body).2 = true
  · simp [readBlockComment, closed] at mem
  · have only : (readBlockComment body).faults =
        [⟨.unterminatedComment, '*', 0, (readBlockComment body).size⟩] := if_neg closed
    have whole : (readBlockComment body).size = ('/' :: '*' :: body).length := by
      show 2 + (blockComment body).1 = body.length + 2
      rw [blockComment_length_of_open closed, Nat.add_comm]
    rw [only, List.mem_singleton] at mem
    subst mem
    exact .openComment rfl whole only

theorem Reads.blames {head : Char} {rest : List Char} {k : Construct} (reads : Reads head rest k) :
    ∀ f ∈ k.faults, k.Blames (head :: rest) f := by
  have headDark := reads.not_isBlank
  cases reads with
  | string opening => exact readString_blames opening rest
  | decimal _ _ =>
    exact (readDecimal_isRow rest headDark).blames (decimalRun_quotes head rest)
      (List.forall_mem_nil _)
  | @radix letter rest radix _ =>
    refine (readRadix_isRow radix letter rest).blames (radix.marks_quotes _)
      (missingDigits_blames rfl ?_)
    intro none
    show TokenValue.number (radix.value (Mark.text ((run rest).map radix.mark))) = _
    rw [none, Cursor.radix_value_nil]
  | @legacyDecimal head rest beyond =>
    have dark := not_isBlank_of_beyond_octal beyond
    refine (readLegacyDecimal_isRow rest dark).blames (decimalRun_quotes head rest) ?_
    rw [List.forall_mem_singleton]
    exact .numeral rfl rfl fun zero => by cases zero
  | @legacyOctal head rest octal =>
    refine (readLegacyOctal_isRow (head :: rest)).blames (Radix.octal.marks_quotes _) ?_
    rw [List.forall_mem_singleton]
    exact .numeral rfl rfl fun zero => by cases zero
  | zeroPoint _ =>
    exact (readDecimal_isRow _ headDark).blames (decimalRun_quotes _ _) (List.forall_mem_nil _)
  | zero _ => exact List.forall_mem_nil _
  | zeroBefore _ _ _ dark =>
    rw [loneZero, List.forall_mem_singleton]
    exact .char rfl rfl dark
  | word _ =>
    have quotes : ∀ m ∈ wordMarks head rest, m.Quotes := by
      rw [wordMarks, List.forall_mem_cons, List.forall_mem_map]
      exact ⟨Mark.quotes_keep head, fun c _ => wordMark_quotes c⟩
    exact (readWord_isRow rest headDark).blames quotes (List.forall_mem_nil _)
  | pointDecimal _ =>
    exact (readDecimal_isRow _ headDark).blames (decimalRun_quotes _ _) (List.forall_mem_nil _)
  | lineComment => exact List.forall_mem_nil _
  | blockComment => exact readBlockComment_blames _
  | symbol _ _ => exact List.forall_mem_nil _

/-- A fault about a numeral as a whole is one of a number. -/
theorem Blames.of_isOfNumeral {k : Construct} {text : List Char} {f : Fault}
    (h : k.Blames text f) (whole : f.kind.isOfNumeral = true) :
    k.kind = .number ∧ f = ⟨f.kind, '0', 0, k.size⟩ := by
  cases h with
  | char quotes _ _ =>
    rw [(DiagnosticKind.not_isOfNumeral_of_quotesChar quotes).1] at whole
    contradiction
  | numeral _ number _ => exact ⟨number, rfl⟩
  | openString _ _ _ _ _ => exact absurd whole Bool.false_ne_true
  | openComment _ _ _ => exact absurd whole Bool.false_ne_true

/-- What is open takes all of the text, and this is its only fault. -/
theorem Blames.of_isUnterminated {k : Construct} {text : List Char} {f : Fault}
    (h : k.Blames text f) (open_ : f.kind.isUnterminated = true) :
    k.size = text.length ∧ k.faults = [f] := by
  cases h with
  | char quotes _ _ =>
    rw [(DiagnosticKind.not_isOfNumeral_of_quotesChar quotes).2] at open_
    contradiction
  | numeral ofNumeral _ _ =>
    rw [(DiagnosticKind.not_quotesChar_of_isOfNumeral ofNumeral).2] at open_
    contradiction
  | openString _ _ _ whole only => exact ⟨whole, only⟩
  | openComment _ whole only => exact ⟨whole, only⟩

end Construct

/-! ## Diagnostics of scans -/

/-- What a diagnostic in the scan of a text is about, if the text stands at `offset`. -/
inductive Diagnostic.PointsIn (s : Scan) (offset : Nat) (text : List Char) : Diagnostic → Prop
  | char {kind : DiagnosticKind} {c : Char} {i : Nat} (quotes : kind.quotesChar = true)
    (there : text[i]? = some c) (dark : isBlank c = false) :
    PointsIn s offset text ⟨kind, c.toString, Span.cover (offset + i) 1⟩
  | numeral {kind : DiagnosticKind} {t : Token} (ofNumeral : kind.isOfNumeral = true)
    (mem : t ∈ s.tokens) (number : t.kind = .number)
    (zero : kind = .invalidNumericLiteral → t.value = .number .zero) :
    PointsIn s offset text ⟨kind, "0", t.span⟩
  | openString {quote : Char} {t : Token} {i : Nat} (opening : quote = '"' ∨ quote = '\'')
    (there : text[i]? = some quote) (last : s.tokens.getLast? = some t)
    (string : t.kind = .string) (start : t.span.start = (offset + i : Nat))
    (stop : t.span.stop = (offset + text.length : Nat)) :
    PointsIn s offset text ⟨.unterminatedString, quote.toString, t.span⟩
  | openComment {t : Token} (last : s.tokens.getLast? = some t) (comment : t.kind = .blockComment)
    (stop : t.span.stop = (offset + text.length : Nat)) :
    PointsIn s offset text ⟨.unterminatedComment, "*", t.span⟩

namespace Scan

open Construct (Reads)
open Diagnostic (PointsIn)

/-- Each diagnostic is about what its kind says, and behind one of an open end there is none. -/
structure Faithful (s : Scan) (offset : Nat) (text : List Char) : Prop where
  points : ∀ d ∈ s.diagnostics, d.PointsIn s offset text
  final : s.diagnostics.Pairwise fun d _ => d.kind.isUnterminated = false

theorem faithful_nil (offset : Nat) (text : List Char) : Faithful {} offset text where
  points := nofun
  final := List.Pairwise.nil

/-- What is about a part of the text further on is about the text. -/
theorem pointsIn_of_drop {s : Scan} (front : List Token) {offset n : Nat} {text : List Char}
    {diagnostics : List Diagnostic} {stop : Option (Nat × Char)} {d : Diagnostic}
    (room : n ≤ text.length) (h : d.PointsIn s (offset + n) (text.drop n)) :
    d.PointsIn ⟨front ++ s.tokens, diagnostics, stop⟩ offset text := by
  have whole : offset + n + (text.drop n).length = offset + text.length := by
    rw [List.length_drop]
    omega
  have last {t : Token} (h : s.tokens.getLast? = some t) :
      (front ++ s.tokens).getLast? = some t := by
    rw [List.getLast?_append, h, Option.some_or]
  cases h with
  | char quotes there dark =>
    rw [List.getElem?_drop] at there
    rw [Nat.add_assoc]
    exact .char quotes there dark
  | numeral ofNumeral mem number zero =>
    exact .numeral ofNumeral (List.mem_append_right _ mem) number zero
  | openString opening there final string start ends =>
    rw [List.getElem?_drop] at there
    rw [Nat.add_assoc] at start
    exact .openString opening there (last final) string start (whole ▸ ends)
  | openComment final comment ends => exact .openComment (last final) comment (whole ▸ ends)

/-- A diagnostic of an open end is on the last token, a string or a block comment. -/
theorem pointsIn_of_isUnterminated {s : Scan} {offset : Nat} {text : List Char} {d : Diagnostic}
    (h : d.PointsIn s offset text) (open_ : d.kind.isUnterminated = true) :
    ∃ t, s.tokens.getLast? = some t ∧ d.span = t.span ∧
      (d.kind = .unterminatedString → t.kind = .string) ∧
      (d.kind = .unterminatedComment → t.kind = .blockComment) := by
  cases h with
  | char quotes _ _ =>
    rw [(DiagnosticKind.not_isOfNumeral_of_quotesChar quotes).2] at open_
    contradiction
  | numeral ofNumeral _ _ _ =>
    rw [(DiagnosticKind.not_quotesChar_of_isOfNumeral ofNumeral).2] at open_
    contradiction
  | openString _ _ last string _ _ => exact ⟨_, last, rfl, fun _ => string, nofun⟩
  | openComment last comment _ => exact ⟨_, last, rfl, nofun, fun _ => comment⟩

/-- The diagnostics of a construct in front of a scan of what lies behind it. -/
theorem pointsIn_of_blames {k : Construct} {offset : Nat} {text : List Char} {f : Fault}
    {s : Scan} (blames : k.Blames text f)
    (behind : k.size = text.length → s.tokens = []) :
    (f.diagnostic offset).PointsIn (cons k offset s) offset text := by
  have last (whole : k.size = text.length) :
      (cons k offset s).tokens.getLast? = some (k.token offset) := by
    rw [cons, behind whole]
    rfl
  have stop (whole : k.size = text.length) :
      (k.token offset).span.stop = (offset + text.length : Nat) := by
    rw [← whole]
    rfl
  cases blames with
  | char quotes there dark => exact .char quotes there dark
  | numeral ofNumeral number zero =>
    exact PointsIn.numeral (t := k.token offset) ofNumeral List.mem_cons_self number zero
  | openString opening there string whole _ =>
    rw [List.head?_eq_getElem?] at there
    exact PointsIn.openString (t := k.token offset) opening there (last whole) string rfl
      (stop whole)
  | openComment comment whole _ =>
    exact PointsIn.openComment (t := k.token offset) (last whole) comment (stop whole)

theorem Faithful.cons {k : Construct} {offset : Nat} {c : Char} {rest : List Char} {s : Scan}
    (reads : Reads c rest k)
    (nothing : (c :: rest).drop k.taken = [] → s = {})
    (h : s.Faithful (offset + k.taken) ((c :: rest).drop k.taken)) :
    (cons k offset s).Faithful offset (c :: rest) := by
  have room := reads.fitsIn.taken_le
  have behind (whole : k.size = (c :: rest).length) : s = {} :=
    nothing (List.drop_eq_nil_of_le (whole ▸ k.size_le_taken))
  constructor
  case points =>
    intro d mem
    rw [Scan.cons, List.mem_append] at mem
    rcases mem with mem | mem
    · obtain ⟨f, fault, rfl⟩ := List.mem_map.mp mem
      exact pointsIn_of_blames (reads.blames f fault) fun whole => by rw [behind whole]
    · exact pointsIn_of_drop [k.token offset] room (h.points d mem)
  case final =>
    by_cases opens : ∃ f ∈ k.faults, f.kind.isUnterminated = true
    · obtain ⟨f, fault, open_⟩ := opens
      obtain ⟨whole, only⟩ := (reads.blames f fault).of_isUnterminated open_
      rw [Scan.cons, Construct.diagnostics, only, behind whole]
      exact List.pairwise_singleton _ _
    · have closed : ∀ d ∈ k.diagnostics offset, d.kind.isUnterminated = false := by
        intro d mem
        obtain ⟨f, fault, rfl⟩ := List.mem_map.mp mem
        rw [← Bool.not_eq_true]
        exact fun open_ => opens ⟨f, fault, open_⟩
      rw [Scan.cons, List.pairwise_append]
      exact ⟨List.pairwise_of_forall_mem_list fun d mem _ _ => closed d mem, h.final,
        fun d mem _ _ => closed d mem⟩

theorem startingAt_faithful (offset : Nat) (text : List Char) :
    (startingAt offset text).Faithful offset text := by
  have both := walk (P := fun offset text s => (text = [] → s = {}) ∧ s.Faithful offset text)
    ?nil ?blank ?stop ?construct offset text
  · exact both.2
  case nil =>
    intro offset
    exact ⟨fun _ => rfl, faithful_nil offset []⟩
  case blank =>
    intro offset c rest s _ ih
    refine ⟨nofun, fun d mem => ?_, ih.2.final⟩
    exact pointsIn_of_drop [] (n := 1) (Nat.succ_pos _) (ih.2.points d mem)
  case stop =>
    intro offset c rest dark _
    refine ⟨nofun, ?_, List.pairwise_singleton _ _⟩
    rw [stopped, List.forall_mem_singleton]
    exact .char (i := 0) rfl rfl dark
  case construct =>
    intro offset c rest k s reads ih
    exact ⟨nofun, ih.2.cons reads ih.1⟩

/-- A diagnostic of an open end is the last. -/
theorem Faithful.last {s : Scan} {offset : Nat} {text : List Char} (h : s.Faithful offset text)
    {d : Diagnostic} (mem : d ∈ s.diagnostics) (open_ : d.kind.isUnterminated = true) :
    s.diagnostics.getLast? = some d := by
  obtain ⟨front, behind, e⟩ := List.append_of_mem mem
  cases behind with
  | nil => rw [e, List.getLast?_append_cons, List.getLast?_singleton]
  | cons d' behind =>
    have final := h.final
    rw [e, List.pairwise_append, List.pairwise_cons] at final
    rw [final.2.1.1 d' List.mem_cons_self] at open_
    contradiction

theorem countP_le_one {α : Type} {p : α → Bool} {l : List α}
    (h : l.Pairwise fun a _ => p a = false) : l.countP p ≤ 1 := by
  induction h with
  | nil => exact Nat.zero_le 1
  | @cons a l alone _ ih =>
    rw [List.countP_cons]
    by_cases holds : p a = true
    · have none : l = [] := List.eq_nil_iff_forall_not_mem.mpr fun b mem => by
        rw [alone b mem] at holds
        contradiction
      rw [none, if_pos holds]
      exact Nat.le_refl 1
    · rw [if_neg holds]
      exact ih

/-! ## The whole source -/

/-- A diagnostic that quotes a character lies on that character of the source, which is no blank.
One about a numeral lies on the token of a number and names its zero. One of an open end is the
last, lies on the last token up to the end of the source, and names the opening quote or the star;
there is one of these at most. -/
theorem ofText_diagnostics_faithful (source : String) :
    (∀ d ∈ (ofText source).diagnostics,
      (d.kind.quotesChar = true → d.span.size = 1 ∧ ∃ i c, d.span.start = (i : Nat) ∧
        source.toList[i]? = some c ∧ d.char = c.toString ∧ isBlank c = false) ∧
      (d.kind.isOfNumeral = true → d.char = "0" ∧ ∃ t ∈ (ofText source).tokens,
        t.kind = .number ∧ t.span = d.span ∧
          (d.kind = .invalidNumericLiteral → t.value = .number .zero)) ∧
      (d.kind.isUnterminated = true → (ofText source).diagnostics.getLast? = some d ∧
        ∃ t, (ofText source).tokens.getLast? = some t ∧ t.span = d.span ∧
          t.span.stop = source.length ∧
          (d.kind = .unterminatedString → t.kind = .string ∧
            ∃ i quote, d.span.start = (i : Nat) ∧ source.toList[i]? = some quote ∧
              (quote = '"' ∨ quote = '\'') ∧ d.char = quote.toString) ∧
          (d.kind = .unterminatedComment → t.kind = .blockComment ∧ d.char = "*"))) ∧
    (ofText source).diagnostics.countP (·.kind.isUnterminated) ≤ 1 := by
  have faithful := startingAt_faithful 0 source.toList
  refine ⟨fun d mem => ?_, countP_le_one faithful.final⟩
  have last := faithful.last mem
  have length : ((0 + source.toList.length : Nat) : Int) = source.length := by
    rw [Nat.zero_add, String.length_toList]
  cases faithful.points d mem with
  | @char kind c i quotes there dark =>
    obtain ⟨noNumeral, closed⟩ := DiagnosticKind.not_isOfNumeral_of_quotesChar quotes
    refine ⟨fun _ => ⟨Span.size_cover _ 1, i, c, ?_, there, rfl, dark⟩, ?_, ?_⟩
    · rw [Nat.zero_add]
      rfl
    · exact fun ofNumeral => absurd ofNumeral (Bool.not_eq_true _ ▸ noNumeral)
    · exact fun open_ => absurd open_ (Bool.not_eq_true _ ▸ closed)
  | numeral ofNumeral token number zero =>
    obtain ⟨noQuotes, closed⟩ := DiagnosticKind.not_quotesChar_of_isOfNumeral ofNumeral
    refine ⟨?_, fun _ => ⟨rfl, _, token, number, rfl, zero⟩, ?_⟩
    · exact fun quotes => absurd quotes (Bool.not_eq_true _ ▸ noQuotes)
    · exact fun open_ => absurd open_ (Bool.not_eq_true _ ▸ closed)
  | openString opening there final string start stop =>
    rw [Nat.zero_add] at start
    exact ⟨nofun, nofun, fun _ => ⟨last rfl, _, final, rfl, length ▸ stop,
      fun _ => ⟨string, _, _, start, there, opening, rfl⟩, nofun⟩⟩
  | openComment final comment stop =>
    exact ⟨nofun, nofun, fun _ => ⟨last rfl, _, final, rfl, length ▸ stop, nofun,
      fun _ => ⟨comment, rfl⟩⟩⟩

/-- The sign of an exponent without digits, an old octal number and an open string. -/
theorem ofText_diagnostics_faithful_open :
    ⟨.invalidOrUnexpectedToken, "-", Span.cover 2 1⟩ ∈ (ofText "1e- 017 'a\\").diagnostics ∧
    (ofText "1e- 017 'a\\").diagnostics.getLast? =
      some ⟨.unterminatedString, "'", Span.cover 8 3⟩ ∧
    (∃ i c, (2 : Int) = (i : Nat) ∧ "1e- 017 'a\\".toList[i]? = some c ∧ "-" = c.toString ∧
      isBlank c = false) ∧
    ∃ t ∈ (ofText "1e- 017 'a\\").tokens, t.kind = .number ∧ t.span = Span.cover 4 3 := by
  have sign : ⟨.invalidOrUnexpectedToken, "-", Span.cover 2 1⟩ ∈
      (ofText "1e- 017 'a\\").diagnostics := by decide +kernel
  have octal : ⟨.legacyOctalLiteral, "0", Span.cover 4 3⟩ ∈
      (ofText "1e- 017 'a\\").diagnostics := by decide +kernel
  obtain ⟨-, token⟩ := ((ofText_diagnostics_faithful "1e- 017 'a\\").1 _ octal).2.1 rfl
  obtain ⟨t, mem, number, span, -⟩ := token
  exact ⟨sign, by decide +kernel,
    (((ofText_diagnostics_faithful "1e- 017 'a\\").1 _ sign).1 rfl).2, t, mem, number, span⟩

end Scan

end ScriptLexer
