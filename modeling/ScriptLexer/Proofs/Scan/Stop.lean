import ScriptLexer.Proofs.Scan.Coverage
import ScriptLexer.Proofs.Scan.Seam
import ScriptLexer.Proofs.Grammar.Decimal
import ScriptLexer.Proofs.Cursor.Totality

/-
  Where a scan stops short. It does so at a character that is unrecognized (`isUnrecognized`),
  wherever that stands in front of a construct, and no reader looks past such a character if it
  has not taken it (`Construct.Reads.append_of_unrecognized`). So nothing behind the stop matters:
  `Scan.startingAt_append_of_stop`, `Scan.ofText_stop`.
-/

namespace ScriptLexer

/-! ## Characters that begin nothing -/

/-- The characters that symbols are made of. Each is a symbol of its own. -/
def symbolChars : List Char :=
  ['(', ')', '{', '}', '[', ']', ',', ':', ';', '?', '~',
   '!', '+', '-', '*', '/', '%', '=', '<', '>', '&', '|', '^', '.']

/-- Neither a blank nor anything that a construct can begin with. -/
def isUnrecognized (c : Char) : Bool :=
  !(isBlank c || symbolChars.contains c || c == '"' || c == '\'' || c.isDigit || isIdentStart c)

theorem isUnrecognized_iff {c : Char} : isUnrecognized c = true ↔ isBlank c = false ∧
    c ∉ symbolChars ∧ ¬(c = '"' ∨ c = '\'') ∧ c.isDigit = false ∧ isIdentStart c = false := by
  simp [isUnrecognized, and_assoc]

namespace Symbol

theorem table_symbolChars :
    (table.all fun s => s.text.toList.all symbolChars.contains) = true := by decide

theorem mem_symbolChars {s : Symbol} {c : Char} (h : c ∈ s.text.toList) : c ∈ symbolChars := by
  have all := List.all_eq_true.mp table_symbolChars s (mem_table s)
  exact List.contains_iff_mem.mp (List.all_eq_true.mp all c h)

theorem not_mem_text {c : Char} (h : isUnrecognized c = true) (s : Symbol) :
    c ∉ s.text.toList :=
  fun mem => (isUnrecognized_iff.mp h).2.1 (mem_symbolChars mem)

theorem symbolChars_table :
    (symbolChars.all fun c => table.any fun s => s.text.toList == [c]) = true := by decide

theorem exists_text_eq {c : Char} (h : c ∈ symbolChars) : ∃ s : Symbol, s.text.toList = [c] := by
  have some := List.all_eq_true.mp symbolChars_table c h
  obtain ⟨s, -, e⟩ := List.any_eq_true.mp some
  exact ⟨s, beq_iff_eq.mp e⟩

end Symbol

namespace Construct

theorem Reads.not_isUnrecognized {head : Char} {rest : List Char} {k : Construct}
    (reads : Reads head rest k) : isUnrecognized head = false := by
  cases reads with
  | string opening => rcases opening with rfl | rfl <;> decide
  | decimal digit _ => simp [isUnrecognized, digit]
  | word start => simp [isUnrecognized, start]
  | @symbol _ _ s longest _ =>
    rw [← Bool.not_eq_true]
    intro nothing
    have mem := List.head_mem s.toList_text_ne_nil
    rw [longest.fits.head s.toList_text_ne_nil] at mem
    exact Symbol.not_mem_text nothing s mem
  | _ => decide

/-- A character made for symbols begins one, unless something longer begins there. -/
theorem exists_reads_symbol {c : Char} (h : c ∈ symbolChars) {rest : List Char}
    (shorter : ¬BeginsLonger (c :: rest)) : ∃ s : Symbol, Reads c rest (readSymbol s) := by
  obtain ⟨s, single⟩ := Symbol.exists_text_eq h
  have fits : s.text.toList <+: c :: rest := by
    rw [single]
    exact List.prefix_append [c] rest
  obtain ⟨s', found⟩ := Option.ne_none_iff_exists'.mp (Symbol.atFront?_ne_none fits)
  exact ⟨s', .symbol (Symbol.atFront?_eq_some_iff.mp found) shorter⟩

/-- A character made for symbols begins a construct, whatever stands behind it. -/
theorem exists_reads_of_symbolChar {c : Char} (h : c ∈ symbolChars) (rest : List Char) :
    ∃ k, Reads c rest k := by
  by_cases longer : BeginsLonger (c :: rest)
  · cases longer with
    | lineComment => exact ⟨_, .lineComment⟩
    | blockComment => exact ⟨_, .blockComment⟩
    | pointDecimal digit => exact ⟨_, .pointDecimal digit⟩
  · obtain ⟨s, reads⟩ := exists_reads_symbol h longer
    exact ⟨_, reads⟩

/-- Which characters begin nothing does not depend on what stands behind them. -/
theorem atFront?_eq_none_iff {c : Char} (dark : isBlank c = false) {rest : List Char} :
    atFront? c rest = none ↔ isUnrecognized c = true := by
  constructor
  · intro nothing
    have unread (k : Construct) : ¬Reads c rest k := fun reads => by
      rw [atFront?_eq_some_iff.mpr reads] at nothing
      contradiction
    rw [isUnrecognized_iff]
    refine ⟨dark, fun mem => ?_, fun opening => unread _ (.string opening), ?_, ?_⟩
    · obtain ⟨k, reads⟩ := exists_reads_of_symbolChar mem rest
      exact unread k reads
    · rw [← Bool.not_eq_true]
      exact fun digit => unread _ (reads_number rest digit)
    · rw [← Bool.not_eq_true]
      exact fun start => unread _ (.word start)
  · intro nothing
    rw [Option.eq_none_iff_forall_ne_some]
    intro k found
    rw [(atFront?_eq_some_iff.mp found).not_isUnrecognized] at nothing
    contradiction

end Construct

/-! ## Readers in front of an unrecognized character -/

/-- A text with a character that `l` does not hold is no shorter beginning of `l`. -/
theorem prefix_of_prefix_append {l text more : List Char} {c : Char} (mem : c ∈ text)
    (out : c ∉ l) (h : l <+: text ++ more) : l <+: text := by
  rcases Nat.le_total l.length text.length with short | long
  · exact List.prefix_of_prefix_length_le h (List.prefix_append text more) short
  · have inside := List.prefix_of_prefix_length_le (List.prefix_append text more) h long
    exact absurd (inside.subset mem) out

theorem decimalRun_append_of_lt {head : Char} {rest : List Char}
    (room : (decimalRun head rest).length < (head :: rest).length) (more : List Char) :
    decimalRun head (rest ++ more) = decimalRun head rest := by
  cases rest with
  | nil => exact absurd room (Nat.lt_irrefl 1)
  | cons next rest =>
    by_cases goes : continuesDecimal next = true
    · have length : (decimalRun head (next :: rest)).length = (run (next :: rest)).length + 1 := by
        rw [← List.length_map (·.char), decimalRun_map_char_of_continues goes, List.length_cons]
      rw [length, List.length_cons] at room
      exact decimalRun_congr head (run_append_of_lt (Nat.lt_of_succ_lt_succ room) more)
    · have ends (more : List Char) : ∀ c ∈ (next :: more).head?, ¬continuesDecimal c = true := by
        simpa using goes
      rw [List.cons_append, decimalRun_of_ends (ends _), decimalRun_of_ends (ends _)]

theorem readDecimal_append_of_lt {head : Char} {rest : List Char}
    (room : (readDecimal head rest).taken < (head :: rest).length) (more : List Char) :
    readDecimal head (rest ++ more) = readDecimal head rest := by
  simp only [readDecimal, decimalRun_append_of_lt room more]

namespace Construct

theorem LongerStart.not_isUnrecognized {l : List Char} (h : LongerStart l) :
    ∀ c ∈ l, isUnrecognized c = false :=
  h.forall_mem (by decide) (by decide) (by decide) fun c digit => by simp [isUnrecognized, digit]

theorem beginsLonger_of_append {text more : List Char} {c : Char}
    (nothing : isUnrecognized c = true) (mem : c ∈ text) (h : BeginsLonger (text ++ more)) :
    BeginsLonger text := by
  obtain ⟨l, start, fits⟩ := beginsLonger_iff.mp h
  refine beginsLonger_iff.mpr ⟨l, start, prefix_of_prefix_append mem (fun inside => ?_) fits⟩
  rw [start.not_isUnrecognized c inside] at nothing
  contradiction

theorem isLongest_append_of_mem {s : Symbol} {text : List Char} (longest : s.IsLongest text)
    {c : Char} (nothing : isUnrecognized c = true) (mem : c ∈ text) (more : List Char) :
    s.IsLongest (text ++ more) where
  fits := longest.fits.trans (List.prefix_append text more)
  longest s' fits :=
    longest.longest s' (prefix_of_prefix_append mem (Symbol.not_mem_text nothing s') fits)

/-- A construct does not look past an unrecognized character behind what it takes. -/
theorem Reads.append_of_unrecognized {head : Char} {rest : List Char} {k : Construct}
    (reads : Reads head rest k) {c : Char} (nothing : isUnrecognized c = true)
    (later : c ∈ (head :: rest).drop k.taken) (more : List Char) :
    Reads head (rest ++ more) k := by
  have room : k.taken < (head :: rest).length := by
    refine Nat.lt_of_not_le fun none => ?_
    rw [List.drop_eq_nil_of_le none] at later
    contradiction
  by_cases own : ¬k.EndsWithRun
  · exact reads.append_closed own (reads.closed_of_lt own room) more
  rw [not_not] at own
  cases reads with
  | string => exact absurd rfl own.1
  | lineComment => exact absurd rfl own.2.1
  | blockComment => exact absurd rfl own.2.2
  | decimal digit nonzero =>
    rw [← readDecimal_append_of_lt room more]
    exact .decimal digit nonzero
  | @radix letter rest radix named =>
    have short : (run rest).length < rest.length := by
      have room : 2 + ((run rest).map radix.mark).length < rest.length + 2 := room
      rw [List.length_map] at room
      omega
    rw [← readRadix_congr radix (run_append_of_lt short more)]
    exact .radix named
  | @legacyDecimal head rest beyond =>
    have short : (decimalRun head rest).length < (head :: rest).length := by
      have room : 1 + (decimalRun head rest).length < rest.length + 2 := room
      rw [List.length_cons]
      omega
    have same : readLegacyDecimal head (rest ++ more) = readLegacyDecimal head rest := by
      simp only [readLegacyDecimal, decimalRun_append_of_lt short more]
    rw [← same]
    exact .legacyDecimal beyond
  | @legacyOctal head rest octal =>
    have short : (run (head :: rest)).length < (head :: rest).length := by
      have room : 1 + ((run (head :: rest)).map Radix.octal.mark).length < rest.length + 2 := room
      rw [List.length_map] at room
      rw [List.length_cons]
      omega
    rw [← readLegacyOctal_congr (run_append_of_lt short more)]
    exact .legacyOctal octal
  | zeroPoint digit =>
    rw [← readDecimal_append_of_lt room more]
    exact .zeroPoint digit
  | zero boundary =>
    refine .zero ?_
    cases rest with
    | nil => exact absurd room (Nat.lt_irrefl 1)
    | cons next rest => exact boundary
  | @zeroBefore next rest unnamed nonDigit noFraction dark =>
    refine .zeroBefore unnamed nonDigit (fun point => ?_) dark
    cases rest with
    | nil =>
      -- the text would end with a point, which is not unrecognized
      rw [List.mem_singleton.mp later, point] at nothing
      exact absurd nothing (by decide)
    | cons digit rest => exact noFraction point
  | word start =>
    have short : (run rest).length < rest.length := by
      have room : (wordMarks head rest).length < rest.length + 1 := room
      rw [wordMarks, List.length_cons, List.length_map] at room
      omega
    rw [← readWord_congr head (run_append_of_lt short more)]
    exact .word start
  | pointDecimal digit =>
    rw [← readDecimal_append_of_lt room more]
    exact .pointDecimal digit
  | symbol longest shorter =>
    have mem := List.mem_of_mem_drop later
    exact .symbol (isLongest_append_of_mem longest nothing mem more)
      (mt (beginsLonger_of_append nothing mem) shorter)

end Construct

/-! ## The scan -/

namespace Scan

/-- A scan that has stopped at offset `p`, with what it has read on the way. -/
structure StopsAt (s : Scan) (offset p : Nat) (c : Char) : Prop where
  offset_le : offset ≤ p
  token_le : ∀ t ∈ s.tokens, t.span.stop ≤ p
  last : s.diagnostics.getLast? = some ⟨.unexpectedToken, c.toString, Span.cover p 1⟩

theorem startingAt_stopsAt {offset p : Nat} {c : Char} {text : List Char}
    (stop : (startingAt offset text).stop = some (p, c)) :
    (startingAt offset text).StopsAt offset p c := by
  revert stop
  refine walk (P := fun offset _ s => s.stop = some (p, c) → s.StopsAt offset p c)
    ?nil ?blank ?stop ?construct offset text
  case nil =>
    intro offset stop
    contradiction
  case blank =>
    intro offset _ rest s _ ih stop
    have behind := ih stop
    exact ⟨Nat.le_of_succ_le behind.offset_le, behind.token_le, behind.last⟩
  case stop =>
    intro offset d rest _ _ stop
    rw [stopped, Option.some.injEq, Prod.mk.injEq] at stop
    obtain ⟨rfl, rfl⟩ := stop
    exact ⟨Nat.le_refl _, by simp [stopped], rfl⟩
  case construct =>
    intro offset d rest k s _ ih stop
    have behind := ih stop
    have size_le := k.size_le_taken
    have offset_le := behind.offset_le
    constructor
    case offset_le => omega
    case token_le =>
      rw [cons, List.forall_mem_cons]
      refine ⟨?_, behind.token_le⟩
      simp only [Construct.token, Span.cover]
      omega
    case last => rw [cons, List.getLast?_append, behind.last, Option.some_or]

/-- A scan stops at an unrecognized character of its text. -/
theorem exists_unrecognized {offset p : Nat} {c : Char} {text : List Char}
    (stop : (startingAt offset text).stop = some (p, c)) :
    ∃ i rest, p = offset + i ∧ text.drop i = c :: rest ∧ isUnrecognized c = true := by
  obtain ⟨i, rest, e, ahead, dark, nothing⟩ := startingAt_stopsIn offset text p c stop
  exact ⟨i, rest, e, ahead, (Construct.atFront?_eq_none_iff dark).mp nothing⟩

/-- A scan that has stopped does not change with what is put behind its text. -/
theorem startingAt_append_of_stop {offset p : Nat} {c : Char} {text : List Char}
    (stop : (startingAt offset text).stop = some (p, c)) (more : List Char) :
    startingAt offset (text ++ more) = startingAt offset text := by
  induction offset, text using startingAt.induct with
  | case1 offset =>
    rw [startingAt_nil] at stop
    contradiction
  | case2 offset d rest blank ih =>
    rw [startingAt_blank blank] at stop
    rw [List.cons_append, startingAt_blank blank, startingAt_blank blank, ih stop]
  | case3 offset d rest dark nothing =>
    rw [Bool.not_eq_true] at dark
    have still : Construct.atFront? d (rest ++ more) = none :=
      (Construct.atFront?_eq_none_iff dark).mpr ((Construct.atFront?_eq_none_iff dark).mp nothing)
    rw [List.cons_append, startingAt_stop dark still, startingAt_stop dark nothing]
  | case4 offset d rest dark k found ih =>
    have reads := Construct.atFront?_eq_some_iff.mp found
    rw [startingAt_construct reads] at stop
    obtain ⟨i, behind, -, ahead, nothing⟩ := exists_unrecognized stop
    have later : c ∈ (d :: rest).drop k.taken := by
      refine List.mem_of_mem_drop (i := i) ?_
      rw [ahead]
      exact List.mem_cons_self
    have whole := reads.append_of_unrecognized nothing later more
    rw [← drop_taken k d rest] at ih
    rw [List.cons_append, startingAt_construct whole, startingAt_construct reads,
      ← List.cons_append, List.drop_append_of_le_length reads.fitsIn.taken_le, ih stop]

/-- If the scan of `a` stops at an unrecognized character, it is the scan of every text that begins
with `a`; its last diagnostic is on that character, and no token goes beyond it. If it does not
stop, it goes over the whole of `a`. -/
theorem ofText_stop (a : String) :
    (∀ p c, (ofText a).stop = some (p, c) →
      a.toList[p]? = some c ∧ isUnrecognized c = true ∧
      (∀ b, ofText (a ++ b) = ofText a) ∧
      (ofText a).diagnostics.getLast? = some ⟨.unexpectedToken, c.toString, Span.cover p 1⟩ ∧
      ∀ t ∈ (ofText a).tokens, t.span.stop ≤ p) ∧
    ((ofText a).stop = none → ∃ last,
      Cursor.Reaches { source := a.toList } (ofText a).tokens last ∧ last.pos = a.length) := by
  constructor
  · intro p c stop
    obtain ⟨i, rest, rfl, ahead, nothing⟩ := exists_unrecognized stop
    have stopsAt := startingAt_stopsAt stop
    refine ⟨?_, nothing, ?_, stopsAt.last, stopsAt.token_le⟩
    · rw [Nat.zero_add, ← List.head?_drop, ahead, List.head?_cons]
    · intro b
      rw [ofText, String.toList_append]
      exact startingAt_append_of_stop stop b.toList
  · intro stop
    obtain ⟨last, reaches, -, gone⟩ :=
      Cursor.reaches_startingAt 0 a.toList { source := a.toList } rfl rfl
    refine ⟨last, reaches, ?_⟩
    have stop : (startingAt 0 a.toList).stop = none := stop
    rw [gone, consumed, stop, Nat.zero_add, String.length_toList]

/-- Digits behind the stop do not make a number of the zero and the point in front of it, and a
letter that is not ASCII in a word is a stray and no stop. -/
theorem ofText_stop_behind_point :
    (ofText "a 0.#").stop = some (4, '#') ∧ ofText ("a 0.#" ++ "5 'x") = ofText "a 0.#" ∧
    (ofText "né").stop = none ∧
    ∃ last, Cursor.Reaches { source := "né".toList } (ofText "né").tokens last ∧ last.pos = 2 := by
  have stop : (ofText "a 0.#").stop = some (4, '#') := by decide +kernel
  have whole : (ofText "né").stop = none := by decide +kernel
  exact ⟨stop, ((ofText_stop "a 0.#").1 4 '#' stop).2.2.1 "5 'x", whole,
    (ofText_stop "né").2 whole⟩

end Scan

end ScriptLexer
