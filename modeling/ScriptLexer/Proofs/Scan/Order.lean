import ScriptLexer.Proofs.Scan.Faithful
import ScriptLexer.Proofs.Scan.Placed

/-
  The order of diagnostics. They are recorded from left to right, but for those about a number as
  a whole, which come behind those on the characters of its run (`Construct.Reads.precedes`). Two
  begin at the same character only if a zero has left this to what begins there
  (`Scan.ofText_diagnostics_ordered`).
-/

namespace ScriptLexer

/-- From left to right the faults of a row are in order. -/
theorem Mark.faults_pairwise (start : Nat) (marks : List Mark) :
    (faults start marks).Pairwise fun f g => f.start < g.start := by
  induction marks generalizing start with
  | nil => exact .nil
  | cons m marks ih =>
    rw [faults_cons, List.pairwise_append]
    refine ⟨?_, ih (start + 1), fun f here g behind => ?_⟩
    · cases m.fault with
      | none => exact .nil
      | some kind => exact List.pairwise_singleton _ _
    · obtain ⟨kind, -, rfl⟩ := Option.map_eq_some_iff.mp (Option.mem_toList.mp here)
      obtain ⟨i, _, _, -, -, rfl⟩ := Mark.mem_faults.mp behind
      show start < start + 1 + i
      omega

/-! ## Faults of a construct -/

/-- How a fault of a construct at the front of a text comes to stand before another: it begins
before that, or the other is about the number of which this is in the run. -/
inductive Fault.Precedes (text : List Char) (f g : Fault) : Prop
  | leftToRight (before : f.start < g.start)
  | numeral (whole : g.kind.isOfNumeral = true) (first : g.start = 0)
    (ofDigit : f.kind.isOfDigit = true) (behind : 0 < f.start)
    (inRun : f.start < (run text).length)

namespace Construct

open Fault (Precedes)

section Row

variable {k : Construct} {text front : List Char} {marks : List Mark} {own : List Fault}

/-- A row does not go beyond the run that it begins. -/
theorem IsRow.taken_le_run (row : k.IsRow text front marks own)
    (dark : ∀ c ∈ front, isBlank c = false) : k.taken ≤ (run text).length := by
  obtain ⟨more, e⟩ := row.ahead
  have all : ∀ c ∈ front ++ marks.map (·.char), isBlank c = false :=
    List.forall_mem_append.mpr ⟨dark, List.forall_mem_map.mpr row.dark⟩
  rw [← e, run_append_of_not_isBlank all, List.length_append, List.length_append, List.length_map,
    row.taken]
  exact Nat.le_add_right _ _

theorem IsRow.precedes_of_marks (row : k.IsRow text front marks []) :
    k.faults.Pairwise (Precedes text) := by
  rw [row.faults, List.append_nil]
  exact (Mark.faults_pairwise _ _).imp .leftToRight

theorem IsRow.precedes (row : k.IsRow text front marks own) (some : 0 < front.length)
    (dark : ∀ c ∈ front, isBlank c = false) (digits : ∀ m ∈ marks, m.OfDigit)
    (whole : ∀ g ∈ own, g.kind.isOfNumeral = true ∧ g.start = 0)
    (single : own.Pairwise (Precedes text)) : k.faults.Pairwise (Precedes text) := by
  rw [row.faults, List.pairwise_append]
  refine ⟨(Mark.faults_pairwise _ _).imp .leftToRight, single, fun f ofMark g ofNumber => ?_⟩
  obtain ⟨i, m, kind, at_i, fault, rfl⟩ := Mark.mem_faults.mp ofMark
  obtain ⟨below, -⟩ := List.getElem?_eq_some_iff.mp at_i
  obtain ⟨ofNumeral, first⟩ := whole g ofNumber
  have taken := row.taken
  have inRun := row.taken_le_run dark
  refine .numeral ofNumeral first (digits m (List.mem_of_getElem? at_i) kind fault) ?_ ?_
  · show 0 < front.length + i
    omega
  · show front.length + i < _
    omega

end Row

theorem missingDigits_precedes (k : Construct) (digits text : List Char) :
    (∀ g ∈ missingDigits k digits, g.kind.isOfNumeral = true ∧ g.start = 0) ∧
      (missingDigits k digits).Pairwise (Precedes text) := by
  unfold missingDigits
  split
  · exact ⟨List.forall_mem_singleton.mpr ⟨rfl, rfl⟩, List.pairwise_singleton _ _⟩
  · exact ⟨List.forall_mem_nil _, .nil⟩

/-- The faults of a construct are in order, but for one about a number as a whole. -/
theorem Reads.precedes {head : Char} {rest : List Char} {k : Construct}
    (reads : Reads head rest k) : k.faults.Pairwise (Precedes (head :: rest)) := by
  have dark := reads.not_isBlank
  cases reads with
  | string _ =>
    unfold readString
    dsimp only
    split
    · exact .nil
    · exact List.pairwise_singleton _ _
  | decimal _ _ | zeroPoint _ | pointDecimal _ => exact (readDecimal_isRow _ dark).precedes_of_marks
  | @radix letter rest radix named =>
    have letterDark := not_isBlank_of_isIdentStart (Radix.of_ofLetter? named)
    obtain ⟨whole, single⟩ := missingDigits_precedes (readRadix radix rest)
      (Mark.text ((run rest).map radix.mark)) ('0' :: letter :: rest)
    refine (readRadix_isRow radix letter rest).precedes Nat.two_pos ?_ (radix.marks_ofDigit _) whole
      single
    exact List.forall_mem_cons.mpr ⟨dark, List.forall_mem_singleton.mpr letterDark⟩
  | @legacyDecimal head rest beyond =>
    have row := readLegacyDecimal_isRow rest (not_isBlank_of_beyond_octal beyond)
    exact row.precedes Nat.one_pos (List.forall_mem_singleton.mpr dark)
      (decimalRun_ofDigit head rest) (List.forall_mem_singleton.mpr ⟨rfl, rfl⟩)
      (List.pairwise_singleton _ _)
  | @legacyOctal head rest _ =>
    exact (readLegacyOctal_isRow (head :: rest)).precedes Nat.one_pos
      (List.forall_mem_singleton.mpr dark) (Radix.octal.marks_ofDigit _)
      (List.forall_mem_singleton.mpr ⟨rfl, rfl⟩) (List.pairwise_singleton _ _)
  | zero _ => exact .nil
  | zeroBefore _ _ _ _ => exact List.pairwise_singleton _ _
  | word _ => exact (readWord_isRow _ dark).precedes_of_marks
  | lineComment => exact .nil
  | blockComment =>
    unfold readBlockComment
    dsimp only
    split
    · exact .nil
    · exact List.pairwise_singleton _ _
  | symbol _ _ => exact .nil

end Construct

/-! ## Diagnostics of a scan -/

/-- No blank stands between where `e` begins and where `d` does, further on in the source. -/
def Diagnostic.InRunOf (d e : Diagnostic) (source : List Char) : Prop :=
  ∃ start i : Nat, e.span.start = start ∧ d.span.start = ((start + i : Nat) : Int) ∧
    i < (run (source.drop start)).length

namespace Scan

open Construct (Reads)

/-- The diagnostic is recorded for the construct that the character at `start` begins, or on this
character if it begins none. -/
inductive RecordsAt (s : Scan) (start : Nat) (c : Char) (rest : List Char) (d : Diagnostic) : Prop
  | construct {k : Construct} (reads : Reads c rest k) (token : k.token start ∈ s.tokens)
    (own : d ∈ k.diagnostics start)
  | stop (stop : s.stop = some (start, c)) (own : d ∈ (stopped start c).diagnostics)

/-- How two diagnostics stand to one another, of which `d` is recorded first. It begins behind `e`
exactly if this is about a number as a whole and `d` about a character in the run that the number
begins. It begins where `e` does only if a zero has left that character behind, and then `e` is
recorded for what begins there. -/
structure Ordered (s : Scan) (source : List Char) (d e : Diagnostic) : Prop where
  behind : e.span.start < d.span.start ↔
    e.kind.isOfNumeral = true ∧ d.kind.isOfDigit = true ∧ d.InRunOf e source
  number : e.span.start < d.span.start → ∃ t ∈ s.tokens, t.kind = .number ∧ t.span = e.span
  shared : d.span.start = e.span.start → ∃ place c rest, source.drop place = '0' :: c :: rest ∧
    s.LeftByZero place c d ∧ s.RecordsAt (place + 1) c rest e

section Ordered

variable {s : Scan} {source : List Char} {d e : Diagnostic}

theorem ordered_of_lt (before : d.span.start < e.span.start) : s.Ordered source d e where
  behind := by
    refine iff_of_false (Int.not_lt.mpr (Int.le_of_lt before)) ?_
    rintro ⟨-, -, start, i, first, second, -⟩
    omega
  number late := absurd late (Int.not_lt.mpr (Int.le_of_lt before))
  shared same := absurd same (Int.ne_of_lt before)

theorem RecordsAt.cons {start : Nat} {c : Char} {rest : List Char}
    (h : s.RecordsAt start c rest d) (k : Construct) (offset : Nat) :
    (cons k offset s).RecordsAt start c rest d := by
  cases h with
  | construct reads token own => exact .construct reads (List.mem_cons_of_mem _ token) own
  | stop stop own => exact .stop stop own

/-- What is in order behind a construct is so in the scan that reads the construct first. -/
theorem Ordered.cons (h : s.Ordered source d e) (k : Construct) (offset : Nat) :
    (cons k offset s).Ordered source d e where
  behind := h.behind
  number late := by
    obtain ⟨t, mem, number⟩ := h.number late
    exact ⟨t, List.mem_cons_of_mem _ mem, number⟩
  shared same := by
    obtain ⟨place, c, rest, ahead, left, records⟩ := h.shared same
    exact ⟨place, c, rest, ahead, left.mono (List.subset_cons_self _ _), records.cons k offset⟩

end Ordered

/-- Two diagnostics of one construct. -/
theorem ordered_of_precedes {head : Char} {rest source : List Char} {k : Construct} {f g : Fault}
    {offset : Nat} (reads : Reads head rest k) (ahead : source.drop offset = head :: rest)
    (fault : g ∈ k.faults) (precedes : f.Precedes (head :: rest) g) (s : Scan) :
    (cons k offset s).Ordered source (f.diagnostic offset) (g.diagnostic offset) := by
  cases precedes with
  | leftToRight before =>
    refine ordered_of_lt ?_
    show ((offset + f.start : Nat) : Int) < ((offset + g.start : Nat) : Int)
    omega
  | numeral whole first ofDigit behind inRun =>
    have late : ((offset + g.start : Nat) : Int) < ((offset + f.start : Nat) : Int) := by omega
    constructor
    case behind =>
      refine iff_of_true late ⟨whole, ofDigit, offset, f.start, ?_, rfl, ahead ▸ inRun⟩
      show ((offset + g.start : Nat) : Int) = offset
      rw [first, Nat.add_zero]
    case number =>
      intro _
      obtain ⟨number, e⟩ := (reads.blames g fault).of_isOfNumeral whole
      refine ⟨k.token offset, List.mem_cons_self, number, ?_⟩
      rw [e]
      rfl
    case shared => exact fun same => absurd same (Int.ne_of_gt late)

/-- A diagnostic on the first character of a text is recorded for what begins there. -/
theorem startingAt_recordsAt {start : Nat} {c : Char} {rest : List Char} {d : Diagnostic}
    (dark : isBlank c = false) (mem : d ∈ (startingAt start (c :: rest)).diagnostics)
    (first : d.span.start = start) : (startingAt start (c :: rest)).RecordsAt start c rest d := by
  cases found : Construct.atFront? c rest with
  | none =>
    rw [startingAt_stop dark found] at mem ⊢
    exact .stop rfl mem
  | some k =>
    have reads := Construct.atFront?_eq_some_iff.mp found
    rw [startingAt_construct reads] at mem ⊢
    rw [cons, List.mem_append] at mem
    refine .construct reads List.mem_cons_self (mem.resolve_right fun behind => ?_)
    have low := ((startingAt_within _ _).diagnostic d behind).1
    have taken_pos := k.taken_pos
    omega

/-- What is recorded where no number begins is not about a number as a whole. -/
theorem RecordsAt.not_isOfNumeral {s : Scan} {start : Nat} {c : Char} {rest : List Char}
    {d : Diagnostic} (h : s.RecordsAt start c rest d)
    (noNumber : ∀ k, Reads c rest k → k.kind ≠ .number) : ¬d.kind.isOfNumeral = true := by
  intro whole
  cases h with
  | stop _ own =>
    rw [List.mem_singleton.mp own] at whole
    contradiction
  | construct reads _ own =>
    obtain ⟨f, fault, rfl⟩ := List.mem_map.mp own
    exact noNumber _ reads ((reads.blames f fault).of_isOfNumeral whole).1

/-- A diagnostic of a construct and one of the scan behind it. -/
theorem ordered_of_behind {head : Char} {rest source : List Char} {k : Construct} {f : Fault}
    {offset : Nat} {e : Diagnostic} (reads : Reads head rest k)
    (ahead : source.drop offset = head :: rest) (fault : f ∈ k.faults)
    (mem : e ∈ (startingAt (offset + k.taken) ((head :: rest).drop k.taken)).diagnostics) :
    (startingAt offset (head :: rest)).Ordered source (f.diagnostic offset) e := by
  have low := ((startingAt_within _ _).diagnostic e mem).1
  rcases reads.contained_or_loneZero with contained | ⟨c, behind, rfl, rfl, rfl, dark, noNumber⟩
  · refine ordered_of_lt ?_
    have inside := contained f fault
    show ((offset + f.start : Nat) : Int) < _
    omega
  obtain rfl := List.mem_singleton.mp fault
  rcases Int.lt_or_eq_of_le low with later | same
  · exact ordered_of_lt later
  -- both are on the character that the zero has left
  have records := startingAt_recordsAt dark mem same.symm
  constructor
  case behind =>
    refine iff_of_false (Int.not_lt.mpr (Int.le_of_eq same)) fun whole => ?_
    exact records.not_isOfNumeral noNumber whole.1
  case number => exact fun late => absurd late (Int.not_lt.mpr (Int.le_of_eq same))
  case shared =>
    intro _
    rw [startingAt_construct reads]
    exact ⟨offset, c, behind, ahead, ⟨List.mem_cons_self, rfl⟩, records.cons _ offset⟩

theorem startingAt_ordered (offset : Nat) (text source : List Char)
    (ahead : source.drop offset = text) :
    (startingAt offset text).diagnostics.Pairwise ((startingAt offset text).Ordered source) := by
  have both := walk (P := fun offset text s => s = startingAt offset text ∧
      (source.drop offset = text → s.diagnostics.Pairwise (s.Ordered source)))
    ?nil ?blank ?stop ?construct offset text
  · exact both.2 ahead
  case nil =>
    intro offset
    exact ⟨(startingAt_nil offset).symm, fun _ => .nil⟩
  case blank =>
    intro offset c rest s blank ih
    refine ⟨ih.1.trans (startingAt_blank blank offset rest).symm, fun ahead => ih.2 ?_⟩
    rw [← List.drop_drop, ahead, List.drop_one, List.tail_cons]
  case stop =>
    intro offset c rest dark nothing
    exact ⟨(startingAt_stop dark nothing offset).symm, fun _ => List.pairwise_singleton _ _⟩
  case construct =>
    intro offset c rest k s reads ih
    obtain ⟨rfl, ih⟩ := ih
    have whole := startingAt_construct reads offset
    refine ⟨whole.symm, fun ahead => ?_⟩
    have later := ih (by rw [← List.drop_drop, ahead])
    show (k.diagnostics offset ++ Scan.diagnostics _).Pairwise _
    rw [List.pairwise_append]
    refine ⟨?_, later.imp fun ordered => ordered.cons k offset, ?_⟩
    · refine List.pairwise_map.mpr (reads.precedes.imp_of_mem fun _ fault precedes => ?_)
      exact ordered_of_precedes reads ahead fault precedes _
    · intro d mem e behind
      obtain ⟨f, fault, rfl⟩ := List.mem_map.mp mem
      rw [← whole]
      exact ordered_of_behind reads ahead fault behind

/-- Of two diagnostics the first begins before the other, unless that is about a number as a whole
and the first about a character in the run of this number, or a zero has left the character where
both begin. -/
theorem ofText_diagnostics_ordered (source : String) :
    (ofText source).diagnostics.Pairwise ((ofText source).Ordered source.toList) :=
  startingAt_ordered 0 source.toList source.toList rfl

/-- Both exceptions: an old notation behind its strays, and a quote that a zero has left. -/
example : (ofText "08.x 0'").diagnostics =
    [⟨.invalidOrUnexpectedToken, "x", Span.cover 3 1⟩, ⟨.legacyDecimalEscape, "0", Span.cover 0 3⟩,
      ⟨.invalidOrUnexpectedToken, "'", Span.cover 6 1⟩,
      ⟨.unterminatedString, "'", Span.cover 6 1⟩] := by
  decide +kernel

end Scan

end ScriptLexer
