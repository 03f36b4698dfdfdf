import ScriptLexer.Proofs.Cursor.Agreement
import ScriptLexer.Proofs.Scan.Placed

/-
  Decimals among strays. Of the run that a decimal takes, the kept characters have the shape of a
  decimal whose exponent may lack its digits (`KeptDecimal`); without such an exponent they are
  converted, and alone they are scanned to the same value. Each other character is reported, and
  so is a last one that leaves the decimal open: a run without a report is a complete decimal
  (`Scan.ofText_decimal`).
-/

namespace ScriptLexer

open DecimalPart

/-! ## What is kept -/

/-- `D* [. D*] [(e|E) [+|-] D*]` with a digit in front of the exponent. -/
def KeptDecimal (text : List Char) : Prop :=
  ∃ whole point tail, text = whole ++ (point ++ tail) ∧ Digits whole ∧ Fraction point ∧
    ExponentOrNone tail ∧ (whole ++ point).any Char.isDigit = true

/-- A first digit, or a point and a digit behind it, with what a decimal accepts from there on. -/
inductive AcceptedDecimal : List Char → Prop
  | whole {head : Char} {text : List Char} (digit : head.isDigit = true)
    (accepted : whole.Accepts text) : AcceptedDecimal (head :: text)
  | point {next : Char} {text : List Char} (digit : next.isDigit = true)
    (accepted : fraction.Accepts (next :: text)) : AcceptedDecimal ('.' :: next :: text)

theorem AcceptedDecimal.kept {text : List Char} (h : AcceptedDecimal text) : KeptDecimal text := by
  cases h with
  | @whole head text digit accepted =>
    obtain ⟨digits, point, tail, rfl, all, pointed, behind⟩ := accepts_whole_iff.mp accepted
    refine ⟨head :: digits, point, tail, rfl, digits_cons.mpr ⟨digit, all⟩, pointed, behind, ?_⟩
    rw [List.cons_append, List.any_cons, digit, Bool.true_or]
  | @point next text digit accepted =>
    rw [accepts_cons_of_isDigit digit] at accepted
    obtain ⟨digits, tail, rfl, all, behind⟩ := accepts_fraction_iff.mp accepted
    refine ⟨[], '.' :: next :: digits, tail, rfl, digits_nil,
      .present (digits_cons.mpr ⟨digit, all⟩), behind, ?_⟩
    rw [List.nil_append, List.any_cons, List.any_cons, digit, Bool.true_or, Bool.or_true]

theorem mantissa_of_any {whole point : List Char} (all : Digits whole) (pointed : Fraction point)
    (some : (whole ++ point).any Char.isDigit = true) : Mantissa (whole ++ point) := by
  by_cases none : whole = []
  · subst none
    cases pointed with
    | absent => contradiction
    | @present digits fractional =>
      refine mantissa_point fractional ?_
      rintro rfl
      contradiction
  · exact mantissa_whole all none pointed

/-- Without an exponent that has no digits, the kept characters are converted to their value. -/
theorem KeptDecimal.exists_core {text : List Char} (h : KeptDecimal text) :
    ∃ core cut, text = core ++ cut ∧ (cut = [] ∨ MarkedExponent cut []) ∧
      core = text.rdropWhile isCutOff ∧ isFloatText core = true ∧
      decimalValue core = decimalValue text := by
  obtain ⟨whole, point, tail, rfl, all, pointed, behind, some⟩ := h
  have front := mantissa_of_any all pointed some
  have converted := floatOf?_cutOff front behind
  rw [← List.append_assoc]
  obtain ⟨float, value⟩ : isFloatText ((whole ++ point ++ tail).rdropWhile isCutOff) = true ∧
      decimalValue ((whole ++ point ++ tail).rdropWhile isCutOff) =
        decimalValue (whole ++ point ++ tail) := by
    rw [floatOf?] at converted
    split at converted
    · next float => exact ⟨float, Option.some.inj converted⟩
    · contradiction
  rcases rdropWhile_cutOff front behind with ⟨-, core⟩ | ⟨digitless, core⟩
  · refine ⟨_, [], ?_, Or.inl rfl, rfl, float, value⟩
    rw [core, List.append_nil]
  · refine ⟨_, tail, ?_, Or.inr digitless, rfl, float, value⟩
    rw [core]

/-! ## Decimals that go on -/

/-- The forms of a decimal that goes on past its first character `head`. Only in the notation of
old is there a zero in front. -/
inductive DecimalForm : List Char → Char → List Char → Prop
  | digit {head next : Char} {rest : List Char} (digit : head.isDigit = true)
    (nonzero : head ≠ '0') (goes : continuesDecimal next = true) :
    DecimalForm [] head (next :: rest)
  | zeroPoint {next : Char} {rest : List Char} (digit : next.isDigit = true) :
    DecimalForm [] '0' ('.' :: next :: rest)
  | point {next : Char} {rest : List Char} (digit : next.isDigit = true) :
    DecimalForm [] '.' (next :: rest)
  | legacy {head next : Char} {rest : List Char} (beyond : head = '8' ∨ head = '9')
    (goes : continuesDecimal next = true) : DecimalForm ['0'] head (next :: rest)

section Form

variable {front rest : List Char} {head : Char}

theorem DecimalForm.goes (form : DecimalForm front head rest) :
    ∃ next more, rest = next :: more ∧ continuesDecimal next = true := by
  cases form with
  | digit _ _ goes => exact ⟨_, _, rfl, goes⟩
  | zeroPoint _ => exact ⟨_, _, rfl, rfl⟩
  | point digit => exact ⟨_, _, rfl, continuesDecimal_iff.mpr (Or.inl digit)⟩
  | legacy _ goes => exact ⟨_, _, rfl, goes⟩

theorem isDigit_of_beyond {c : Char} (beyond : c = '8' ∨ c = '9') : c.isDigit = true := by
  rcases beyond with rfl | rfl <;> rfl

theorem DecimalForm.begins (form : DecimalForm front head rest) :
    Cursor.BeginsDecimal head rest := by
  cases form with
  | digit digit _ _ => exact Or.inl digit
  | zeroPoint _ => exact Or.inl rfl
  | point digit => exact Or.inr ⟨rfl, _, _, rfl, digit⟩
  | legacy beyond _ => exact Or.inl (isDigit_of_beyond beyond)

theorem DecimalForm.marks (form : DecimalForm front head rest) :
    decimalRun head rest = .keep head ::
      decimalMarks (if head = '.' then .fraction else .whole) (run rest) := by
  obtain ⟨next, more, rfl, goes⟩ := form.goes
  exact decimalRun_of_continues goes head more

theorem DecimalForm.map_char (form : DecimalForm front head rest) :
    (decimalRun head rest).map (·.char) = head :: run rest := by
  obtain ⟨next, more, rfl, goes⟩ := form.goes
  exact decimalRun_map_char_of_continues goes head more

/-- The construct of a decimal: a row behind the zero that may stand in front. -/
theorem DecimalForm.exists_reads (form : DecimalForm front head rest) :
    ∃ first more k, front ++ head :: rest = first :: more ∧ Construct.Reads first more k ∧
      k.IsRow (first :: more) front (decimalRun head rest)
        (if front = [] then [] else [⟨.legacyDecimalEscape, '0', 0, k.size⟩]) ∧
      k.value = .number (decimalValue (Mark.text (decimalRun head rest))) := by
  cases form with
  | digit digit nonzero _ =>
    have dark := not_isBlank_of_isDigit digit
    exact ⟨_, _, _, rfl, .decimal digit nonzero, readDecimal_isRow _ dark, rfl⟩
  | zeroPoint digit =>
    exact ⟨_, _, _, rfl, .zeroPoint digit, readDecimal_isRow _ (by decide), rfl⟩
  | point digit =>
    exact ⟨_, _, _, rfl, .pointDecimal digit, readDecimal_isRow _ (by decide), rfl⟩
  | legacy beyond _ =>
    have dark := not_isBlank_of_beyond_octal beyond
    exact ⟨_, _, _, rfl, .legacyDecimal beyond, readLegacyDecimal_isRow _ dark, rfl⟩

/-! ## Its marks -/

/-- A stray is reported, and so is a kept character that the run ends with and that is no digit. -/
theorem decimalMarks_fault {part : DecimalPart} {text : List Char} {i : Nat} {m : Mark}
    (at_i : (decimalMarks part text)[i]? = some m) :
    m.fault = if m.kept = false ∨ i + 1 = text.length ∧ m.char.isDigit = false then
      some .invalidOrUnexpectedToken else none := by
  induction text generalizing part i with
  | nil => contradiction
  | cons c rest ih =>
    unfold decimalMarks at at_i
    cases i with
    | succ i =>
      have behind : ∃ part', (decimalMarks part' rest)[i]? = some m := by
        split at at_i <;> exact ⟨_, at_i⟩
      obtain ⟨part', behind⟩ := behind
      simp only [ih behind, List.length_cons, Nat.add_right_cancel_iff]
    | zero =>
      split at at_i
      · cases at_i
        cases rest <;> simp
      · cases at_i
        simp [Mark.stray]

theorem DecimalForm.fault (form : DecimalForm front head rest) {i : Nat} {m : Mark}
    (at_i : (decimalRun head rest)[i]? = some m) :
    m.fault = if m.kept = false ∨ i + 1 = (head :: run rest).length ∧ m.char.isDigit = false then
      some .invalidOrUnexpectedToken else none := by
  rw [form.marks] at at_i
  cases i with
  | succ i =>
    rw [List.getElem?_cons_succ] at at_i
    simp only [decimalMarks_fault at_i, List.length_cons, Nat.add_right_cancel_iff]
  | zero =>
    obtain ⟨next, more, rfl, goes⟩ := form.goes
    cases at_i
    simp [Mark.keep, run_cons (not_isBlank_of_continues goes)]

theorem accepted_text_decimalRun (begins : Cursor.BeginsDecimal head rest) :
    AcceptedDecimal (Mark.text (decimalRun head rest)) := by
  by_cases goes : rest.head?.any continuesDecimal = true
  · rw [decimalRun, if_pos goes]
    rcases begins with digit | ⟨rfl, next, more, rfl, digit⟩
    · rw [if_neg (isDigit_ne_point digit)]
      exact .whole digit (accepts_text_decimalMarks _ _)
    · have step := next?_of_isDigit digit .fraction
      have accepted := accepts_text_decimalMarks .fraction (run (next :: more))
      rw [run_cons (not_isBlank_of_isDigit digit), Cursor.decimalMarks_cons_digit step digit] at accepted
      rw [if_pos rfl, run_cons (not_isBlank_of_isDigit digit),
        Cursor.decimalMarks_cons_digit step digit]
      exact .point digit accepted
  · rw [decimalRun, if_neg goes]
    rcases begins with digit | ⟨rfl, next, more, rfl, digit⟩
    · exact .whole digit trivial
    · exact absurd (continuesDecimal_iff.mpr (Or.inl digit)) goes

/-! ## What is kept, scanned alone -/

theorem decimalMarks_kept {part : DecimalPart} {text : List Char} (accepted : part.Accepts text) :
    ∀ m ∈ decimalMarks part text, m.kept = true := by
  induction text generalizing part with
  | nil => exact List.forall_mem_nil _
  | cons c rest ih =>
    obtain ⟨next, step, accepted⟩ := accepted
    rw [decimalMarks, step]
    exact List.forall_mem_cons.mpr ⟨rfl, ih accepted⟩

/-- What a decimal accepts is all kept when it is read alone. -/
theorem AcceptedDecimal.alone {head : Char} {tail : List Char}
    (accepted : AcceptedDecimal (head :: tail)) (dark : ∀ c ∈ tail, isBlank c = false) :
    (∀ m ∈ decimalRun head tail, m.kept = true) ∧
      (decimalRun head tail).map (·.char) = head :: tail := by
  have same : run tail = tail := by
    have alone := run_eq_of_boundary dark atBoundary_nil
    rwa [List.append_nil] at alone
  cases tail with
  | nil => exact ⟨List.forall_mem_singleton.mpr rfl, rfl⟩
  | cons next more =>
    have goes : continuesDecimal next = true := by
      cases accepted with
      | whole _ accepted =>
        obtain ⟨part, step, -⟩ := accepted
        exact continuesDecimal_of_next? step
      | point digit _ => exact continuesDecimal_iff.mpr (Or.inl digit)
    have accepted :
        (if head = '.' then fraction else DecimalPart.whole).Accepts (next :: more) := by
      cases accepted with
      | whole digit accepted => rwa [if_neg (isDigit_ne_point digit)]
      | point _ accepted => exact accepted
    constructor
    · rw [decimalRun_of_continues goes, same]
      exact List.forall_mem_cons.mpr ⟨rfl, decimalMarks_kept accepted⟩
    · rw [decimalRun_map_char_of_continues goes, same]

/-- What is kept begins a decimal of its own. -/
theorem DecimalForm.reads_kept (form : DecimalForm front head rest) :
    ∃ tail, Mark.text (decimalRun head rest) = head :: tail ∧
      Construct.Reads head tail (readDecimal head tail) := by
  rw [form.marks]
  refine ⟨_, rfl, ?_⟩
  cases form with
  | digit digit nonzero _ => exact .decimal digit nonzero
  | legacy beyond _ =>
    refine .decimal (isDigit_of_beyond beyond) ?_
    rcases beyond with rfl | rfl <;> decide
  | @zeroPoint next more digit =>
    have step : whole.next? '.' = some fraction := rfl
    rw [if_neg (by decide), run_cons (by decide), run_cons (not_isBlank_of_isDigit digit),
      Cursor.decimalMarks_cons_other step (by decide),
      Cursor.decimalMarks_cons_digit (next?_of_isDigit digit _) digit]
    exact .zeroPoint digit
  | @point next more digit =>
    rw [if_pos rfl, run_cons (not_isBlank_of_isDigit digit),
      Cursor.decimalMarks_cons_digit (next?_of_isDigit digit _) digit]
    exact .pointDecimal digit

theorem Scan.ofText_of_reads {text : List Char} {head : Char} {rest : List Char} {k : Construct}
    (reads : Construct.Reads head rest k) (e : text = head :: rest) (whole : k.taken = text.length) :
    (ofText (String.ofList text)).tokens = [k.token 0] := by
  subst e
  rw [ofText, String.toList_ofList, startingAt_construct reads, whole, List.drop_length,
    startingAt_nil]
  rfl

theorem DecimalForm.tokens_kept (form : DecimalForm front head rest) :
    (Scan.ofText (String.ofList (Mark.text (decimalRun head rest)))).tokens =
      [⟨.number, Span.cover 0 (Mark.text (decimalRun head rest)).length,
        .number (decimalValue (Mark.text (decimalRun head rest))), none⟩] := by
  obtain ⟨tail, kept, reads⟩ := form.reads_kept
  have accepted := accepted_text_decimalRun form.begins
  have dark : ∀ c ∈ tail, isBlank c = false := by
    intro c mem
    have inText : c ∈ Mark.text (decimalRun head rest) := kept ▸ List.mem_cons_of_mem _ mem
    obtain ⟨m, inRow, rfl⟩ := List.mem_map.mp inText
    exact dark_decimalRun reads.not_isBlank rest m (List.mem_of_mem_filter inRow)
  rw [kept] at accepted
  obtain ⟨all, chars⟩ := accepted.alone dark
  have text : Mark.text (decimalRun head tail) = head :: tail := by
    rw [Mark.text_eq_of_kept all, chars]
  have length : (decimalRun head tail).length = (head :: tail).length := by
    rw [← chars, List.length_map]
  have size : Mark.extent (decimalRun head tail) = (head :: tail).length := by
    rw [Mark.extent_eq_of_kept all, length]
  rw [Scan.ofText_of_reads reads kept (by rw [kept]; exact length), kept]
  show [Token.mk .number (Span.cover 0 (Mark.extent (decimalRun head tail)))
    (.number (decimalValue (Mark.text (decimalRun head tail)))) none] = _
  rw [size, text]

/-! ## A run without a report -/

/-- A complete decimal that does not end in its point. -/
def CompleteDecimal (text : List Char) : Prop :=
  IsNumeral text ∧ text.getLast? ≠ some '.' ∨ IsPointNumeral text

theorem DecimalForm.faultless_iff (form : DecimalForm front head rest) :
    (∀ m ∈ decimalRun head rest, m.fault = none) ↔ CompleteDecimal (head :: run rest) := by
  obtain ⟨next, more, rfl, goes⟩ := form.goes
  rcases form.begins with digit | ⟨rfl, next', more', e, digit⟩
  · have noPoint : ¬IsPointNumeral (head :: run (next :: more)) := by
      rintro ⟨digits, exponent, e, -⟩
      exact isDigit_ne_point digit (List.cons.inj e).1
    rw [decimalRun_faultless_iff digit goes, CompleteDecimal, or_iff_left noPoint]
  · obtain ⟨rfl, rfl⟩ := List.cons.inj e
    have noNumeral : ¬IsNumeral ('.' :: run (next :: more)) := by
      rintro ⟨whole, fraction, exponent, e, some, all, -⟩
      obtain ⟨c, whole, rfl⟩ := List.exists_cons_of_ne_nil some
      exact isDigit_ne_point (digits_cons.mp all).1 (List.cons.inj e).1.symm
    rw [decimalRun_point_faultless_iff digit, CompleteDecimal,
      or_iff_right fun numeral => noNumeral numeral.1]

end Form

/-! ## Decimals of a source text -/

namespace Scan

/-- How a scan reads the run of a decimal that begins at `start`, with `front` before it: by the
marks of the run, of which some are kept. -/
structure ReadsDecimal (s : Scan) (t : Token) (start : Nat) (front stretch : List Char)
    (marks : List Mark) : Prop where
  row : marks.map (·.char) = stretch
  kept : (Mark.text marks).Sublist stretch
  shape : KeptDecimal (Mark.text marks)
  fault : ∀ i m, marks[i]? = some m → m.fault =
    if m.kept = false ∨ i + 1 = stretch.length ∧ m.char.isDigit = false then
      some .invalidOrUnexpectedToken else none
  diagnostics : s.diagnosticsIn start (front.length + stretch.length) =
    (Mark.faults front.length marks).map (·.diagnostic start) ++
      if front = [] then [] else [⟨.legacyDecimalEscape, "0", t.span⟩]
  stray : ∀ i m, marks[i]? = some m → m.kept = false →
    ⟨.invalidOrUnexpectedToken, m.char.toString, Span.cover (start + (front.length + i)) 1⟩ ∈
      s.diagnosticsIn start (front.length + stretch.length)
  converted : ∃ core cut, Mark.text marks = core ++ cut ∧ (cut = [] ∨ MarkedExponent cut []) ∧
    core = (Mark.text marks).rdropWhile isCutOff ∧ isFloatText core = true ∧
    t.value = .number (decimalValue core)
  alone : (ofText (String.ofList (Mark.text marks))).tokens =
    [⟨.number, Span.cover 0 (Mark.text marks).length, t.value, none⟩]
  stop : ∃ before last behind, marks = before ++ last :: behind ∧ last.kept = true ∧
    (∀ m ∈ behind, m.kept = false) ∧
    t.span.stop = ((start + (front.length + (before.length + 1)) : Nat) : Int)
  reported : (∃ d ∈ s.diagnosticsIn start (front.length + stretch.length),
    d.kind = .invalidOrUnexpectedToken) ↔ ¬CompleteDecimal stretch

/-- A diagnostic of a row in which each fault is of one kind. -/
theorem exists_kind_iff {marks : List Mark} {kind : DiagnosticKind} {first start : Nat}
    {own : List Diagnostic} (only : ∀ m ∈ marks, ∀ k ∈ m.fault, k = kind)
    (others : ∀ d ∈ own, d.kind ≠ kind) :
    (∃ d ∈ (Mark.faults first marks).map (·.diagnostic start) ++ own, d.kind = kind) ↔
      ¬∀ m ∈ marks, m.fault = none := by
  rw [← @Mark.faults_eq_nil_iff first marks]
  constructor
  · rintro ⟨d, mem, rfl⟩ none
    rw [none, List.map_nil, List.nil_append] at mem
    exact others d mem rfl
  · intro some
    obtain ⟨f, mem⟩ := List.exists_mem_of_ne_nil _ some
    refine ⟨f.diagnostic start, List.mem_append_left _ (List.mem_map_of_mem mem), ?_⟩
    obtain ⟨i, m, kind, at_i, fault, rfl⟩ := Mark.mem_faults.mp mem
    exact only m (List.mem_of_getElem? at_i) kind fault

theorem readsDecimal_of_form {s : Scan} {k : Construct} {start : Nat} {front rest : List Char}
    {head first : Char} {more : List Char} {own : List Fault}
    (form : DecimalForm front head rest)
    (row : k.IsRow (first :: more) front (decimalRun head rest) own)
    (value : k.value = .number (decimalValue (Mark.text (decimalRun head rest))))
    (legacy : own = if front = [] then [] else [⟨.legacyDecimalEscape, '0', 0, k.size⟩])
    (diagnostics : s.diagnosticsIn start k.taken = k.diagnostics start) :
    s.ReadsDecimal (k.token start) start front (head :: run rest) (decimalRun head rest) := by
  have chars := form.map_char
  have length : (decimalRun head rest).length = (head :: run rest).length := by
    rw [← chars, List.length_map]
  have kept : (Mark.text (decimalRun head rest)).Sublist (head :: run rest) := by
    rw [← chars]
    exact List.filter_sublist.map _
  have reported : s.diagnosticsIn start (front.length + (head :: run rest).length) =
      (Mark.faults front.length (decimalRun head rest)).map (·.diagnostic start) ++
        if front = [] then [] else [⟨.legacyDecimalEscape, "0", (k.token start).span⟩] := by
    rw [← length, ← row.taken, diagnostics, Construct.diagnostics, row.faults, List.map_append,
      legacy]
    split <;> rfl
  constructor
  case row => exact chars
  case kept => exact kept
  case shape => exact (accepted_text_decimalRun form.begins).kept
  case fault => exact fun i m => form.fault
  case diagnostics => exact reported
  case stray =>
    intro i m at_i dropped
    have fault := form.fault at_i
    rw [if_pos (Or.inl dropped)] at fault
    rw [reported]
    have mem : ⟨.invalidOrUnexpectedToken, m.char, front.length + i, 1⟩ ∈
        Mark.faults front.length (decimalRun head rest) :=
      Mark.mem_faults.mpr ⟨i, m, _, at_i, fault, rfl⟩
    exact List.mem_append_left _ (List.mem_map.mpr ⟨_, mem, rfl⟩)
  case converted =>
    obtain ⟨core, cut, split, marked, e, float, same⟩ :=
      (accepted_text_decimalRun form.begins).kept.exists_core
    exact ⟨core, cut, split, marked, e, float, value.trans (congrArg TokenValue.number same.symm)⟩
  case alone =>
    rw [form.tokens_kept]
    exact congrArg (fun v => [Token.mk .number _ v none]) value.symm
  case stop =>
    have some : 0 < Mark.extent (decimalRun head rest) := by
      rw [form.marks]
      exact Mark.extent_pos rfl _
    obtain ⟨before, last, behind, e, lastKept, none, extent⟩ := Mark.exists_last some
    refine ⟨before, last, behind, e, lastKept, none, ?_⟩
    rw [← extent, ← row.size]
    rfl
  case reported =>
    rw [reported, exists_kind_iff, form.faultless_iff]
    · intro m mem kind fault
      obtain ⟨i, below, rfl⟩ := List.getElem_of_mem mem
      rw [form.fault (List.getElem?_eq_getElem below)] at fault
      split at fault
      · exact (Option.mem_some_iff.mp fault).symm
      · contradiction
    · intro d mem
      split at mem
      · contradiction
      · rw [List.mem_singleton] at mem
        rw [mem]
        exact DiagnosticKind.noConfusion

/-- Whatever stands in the run of a decimal that goes on past its first character: what is kept of
it is a decimal up to digits missing from its exponent, the token ends with the last of it and has
its value, as has the token of it alone; all else is reported, and nothing is exactly when the run
is a complete decimal. Every decimal is converted from the text of a number. -/
theorem ofText_decimal {source : String} {t : Token} {start : Nat} {front rest : List Char}
    {head : Char} (mem : t ∈ (ofText source).tokens) (number : t.kind = .number)
    (begins : t.span.start = start) (ahead : source.toList.drop start = front ++ head :: rest)
    (form : DecimalForm front head rest) :
    (ofText source).ReadsDecimal t start front (head :: run rest) (decimalRun head rest) ∧
      ∀ (c : Cursor) (head : Char) (rest : List Char) (first : Int), c.ahead = head :: rest →
        Cursor.BeginsDecimal head rest →
        ∃ text, text = (Mark.text (decimalRun head rest)).rdropWhile isCutOff ∧
          isFloatText text = true ∧
          c.move.commit.readDecimal head first =
            .ok (decimalValue text, c.pass (decimalRun head rest)) := by
  constructor
  · obtain ⟨first, more, k, e, reads, row, value⟩ := form.exists_reads
    have covers : ∀ f ∈ (if front = [] then []
        else [⟨.legacyDecimalEscape, '0', 0, k.size⟩] : List Fault), k.Covers f := by
      intro f mem
      split at mem
      · contradiction
      · rw [List.mem_singleton.mp mem]
        exact ⟨k.size_pos, Nat.le_of_eq (Nat.zero_add _)⟩
    rw [e] at ahead
    obtain ⟨rfl, diagnostics⟩ :=
      ofText_number mem number begins ahead reads (row.contained covers)
    exact readsDecimal_of_form form row value rfl diagnostics
  · intro c head rest first ahead begins
    obtain ⟨core, cut, -, -, e, float, same⟩ := (accepted_text_decimalRun begins).kept.exists_core
    refine ⟨core, e, float, ?_⟩
    rw [Cursor.readDecimal_refines ahead begins, same]

/-- Behind the digit there is a stray, and behind the exponent mark and its sign no digit. -/
theorem ofText_decimal_stray :
    (ofText "a 10_.5e+ b").ReadsDecimal
      ⟨.number, Span.cover 2 7, .number (decimalValue "10.5".toList), none⟩ 2 []
      "10_.5e+".toList (decimalRun '1' "0_.5e+ b".toList) :=
  (@ofText_decimal "a 10_.5e+ b" _ 2 [] "0_.5e+ b".toList '1' (by decide +kernel) rfl rfl
    (by decide +kernel) (.digit (by decide) (by decide) (by decide))).1

end Scan

end ScriptLexer
