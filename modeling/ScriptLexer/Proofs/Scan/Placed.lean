import ScriptLexer.Proofs.Scan.Bounds
import ScriptLexer.Proofs.Scan.Concatenation

/-
  Tokens where they stand in a text. Each token is that of a construct which begins in the text
  where the token does (`Scan.StandsAt`), and the diagnostics on the characters that the construct
  takes are its own, but for one at most: a zero reports a character that it leaves to the next
  construct, and what it leaves begins no number (`Construct.Reads.contained_or_loneZero`).
-/

namespace ScriptLexer

namespace Construct

/-! ## Which constructs are numbers -/

/-- A number begins with a digit, or with a point that has a digit behind it. -/
theorem Reads.number_head {head : Char} {rest : List Char} {k : Construct}
    (reads : Reads head rest k) (number : k.kind = .number) :
    head.isDigit = true ∨ head = '.' ∧ rest.head?.any Char.isDigit = true := by
  cases reads with
  | decimal digit _ => exact Or.inl digit
  | radix _ | legacyDecimal _ | legacyOctal _ | zeroPoint _ | zero _ | zeroBefore _ _ _ _ =>
    exact Or.inl (by decide)
  | pointDecimal digit => exact Or.inr ⟨rfl, digit⟩
  | @symbol _ _ s _ _ => exact absurd number s.kind_ne.1
  | string _ | word _ | lineComment | blockComment => exact TokenKind.noConfusion number

/-- A construct whose faults all begin on characters that it takes. -/
def Contained (k : Construct) : Prop := ∀ f ∈ k.faults, f.start < k.taken

theorem IsRow.contained {k : Construct} {text front : List Char} {marks : List Mark}
    {own : List Fault} (row : k.IsRow text front marks own) (covers : ∀ f ∈ own, k.Covers f) :
    k.Contained := by
  intro f mem
  have size_le := k.size_le_taken
  rw [row.faults, List.mem_append, Mark.mem_faults] at mem
  rcases mem with ⟨i, m, kind, at_i, -, rfl⟩ | mem
  · obtain ⟨below, -⟩ := List.getElem?_eq_some_iff.mp at_i
    have taken := row.taken
    dsimp only
    omega
  · obtain ⟨pos, within⟩ := covers f mem
    omega

theorem contained_of_start {k : Construct} (h : ∀ f ∈ k.faults, f.start = 0) : k.Contained := by
  intro f mem
  rw [h f mem]
  exact k.taken_pos

theorem readString_contained (quote : Char) (rest : List Char) :
    (readString quote rest).Contained := by
  refine contained_of_start fun f mem => ?_
  unfold readString at mem
  dsimp only at mem
  split at mem
  · contradiction
  · rw [List.mem_singleton.mp mem]

theorem readBlockComment_contained (body : List Char) : (readBlockComment body).Contained := by
  refine contained_of_start fun f mem => ?_
  unfold readBlockComment at mem
  dsimp only at mem
  split at mem
  · contradiction
  · rw [List.mem_singleton.mp mem]

/-- The faults of a construct are on the characters that it takes. Only a zero on its own may report
the next character, which is no blank and begins no number. -/
theorem Reads.contained_or_loneZero {head : Char} {rest : List Char} {k : Construct}
    (reads : Reads head rest k) :
    k.Contained ∨ ∃ c behind, head = '0' ∧ rest = c :: behind ∧
      k = loneZero [⟨.invalidOrUnexpectedToken, c, 1, 1⟩] ∧ isBlank c = false ∧
      ∀ k', Reads c behind k' → k'.kind ≠ .number := by
  have dark := reads.not_isBlank
  cases reads with
  | string _ => exact Or.inl (readString_contained head rest)
  | decimal _ _ => exact Or.inl ((readDecimal_isRow rest dark).contained (by simp))
  | @radix letter rest radix _ =>
    exact Or.inl ((readRadix_isRow radix letter rest).contained (missingDigits_covers _ _))
  | @legacyDecimal head rest beyond =>
    refine Or.inl ((readLegacyDecimal_isRow rest (not_isBlank_of_beyond_octal beyond)).contained ?_)
    rw [List.forall_mem_singleton]
    exact ⟨Construct.size_pos _, Nat.le_of_eq (Nat.zero_add _)⟩
  | @legacyOctal head rest octal =>
    refine Or.inl ((readLegacyOctal_isRow (head :: rest)).contained ?_)
    rw [List.forall_mem_singleton]
    exact ⟨Construct.size_pos _, Nat.le_of_eq (Nat.zero_add _)⟩
  | zeroPoint _ => exact Or.inl ((readDecimal_isRow _ dark).contained (by simp))
  | zero _ => exact Or.inl (contained_of_start (List.forall_mem_nil _))
  | @zeroBefore c rest _ nonDigit noFraction nextDark =>
    refine Or.inr ⟨c, rest, rfl, rfl, rfl, nextDark, ?_⟩
    -- the next character is no digit and begins no fraction
    intro k' reads number
    rcases reads.number_head number with digit | ⟨point, fraction⟩
    · rw [nonDigit] at digit
      contradiction
    · rw [noFraction point] at fraction
      contradiction
  | word _ => exact Or.inl ((readWord_isRow rest dark).contained (by simp))
  | pointDecimal _ => exact Or.inl ((readDecimal_isRow _ dark).contained (by simp))
  | lineComment => exact Or.inl (contained_of_start (List.forall_mem_nil _))
  | blockComment => exact Or.inl (readBlockComment_contained _)
  | symbol _ _ => exact Or.inl (contained_of_start (List.forall_mem_nil _))

end Construct

/-! ## Diagnostics on a stretch of the text -/

/-- The diagnostic begins on one of the `length` characters from offset `first` on. -/
def Diagnostic.BeginsIn (d : Diagnostic) (first length : Nat) : Prop :=
  (first : Int) ≤ d.span.start ∧ d.span.start < ((first + length : Nat) : Int)

instance (d : Diagnostic) (first length : Nat) : Decidable (d.BeginsIn first length) :=
  inferInstanceAs (Decidable (_ ∧ _))

namespace Scan

open Construct (Reads Contained)

/-- The diagnostics that begin on the `length` characters from offset `first` on. -/
def diagnosticsIn (s : Scan) (first length : Nat) : List Diagnostic :=
  s.diagnostics.filter fun d => d.BeginsIn first length

theorem beginsIn_diagnostic {f : Fault} {offset first length : Nat} :
    (f.diagnostic offset).BeginsIn first length ↔
      first ≤ offset + f.start ∧ offset + f.start < first + length := by
  simp only [Diagnostic.BeginsIn, Fault.diagnostic, Span.cover]
  omega

/-- On the characters of a construct are its own diagnostics only. -/
theorem diagnosticsIn_cons_self {k : Construct} {offset last : Nat} {s : Scan}
    (contained : k.Contained) (behind : s.Within (offset + k.taken) last) :
    (cons k offset s).diagnosticsIn offset k.taken = k.diagnostics offset := by
  have own : ∀ d ∈ k.diagnostics offset, decide (d.BeginsIn offset k.taken) = true := by
    intro d mem
    obtain ⟨f, fault, rfl⟩ := List.mem_map.mp mem
    have below := contained f fault
    rw [decide_eq_true_eq, beginsIn_diagnostic]
    omega
  have others : ∀ d ∈ s.diagnostics, ¬decide (d.BeginsIn offset k.taken) = true := by
    intro d mem
    have low := (behind.diagnostic d mem).1
    rw [decide_eq_true_eq]
    intro inside
    exact absurd inside.2 (by omega)
  rw [diagnosticsIn, cons, List.filter_append, List.filter_eq_self.mpr own,
    List.filter_eq_nil_iff.mpr others, List.append_nil]

/-! ## Tokens -/

/-- A zero on its own at `place` has left the character behind it with the report `d`. -/
structure LeftByZero (s : Scan) (place : Nat) (c : Char) (d : Diagnostic) : Prop where
  token : ⟨.number, Span.cover place 1, .number .zero, none⟩ ∈ s.tokens
  report : d = ⟨.invalidOrUnexpectedToken, c.toString, Span.cover (place + 1) 1⟩

theorem LeftByZero.mono {s s' : Scan} {place : Nat} {c : Char} {d : Diagnostic}
    (h : s.LeftByZero place c d) (tokens : s.tokens ⊆ s'.tokens) : s'.LeftByZero place c d :=
  ⟨tokens h.token, h.report⟩

/-- The scan comes to the construct `k` that begins at offset `start`, and goes on behind it. In
front of it tokens end and diagnostics begin before `start`, except that a zero may have left the
character at `start` to the construct; then this is no number. -/
structure StandsAt (s : Scan) (start : Nat) (head : Char) (rest : List Char) (k : Construct) :
    Prop where
  reads : Reads head rest k
  parts : ∃ front : Scan, s = front.followedBy (startingAt start (head :: rest)) ∧
    (∀ t ∈ front.tokens, t.span.stop ≤ start) ∧
    ∀ d ∈ front.diagnostics, d.span.start < start ∨
      (∃ place, start = place + 1 ∧ front.LeftByZero place head d) ∧ k.kind ≠ .number

theorem standsAt_self {head : Char} {rest : List Char} {k : Construct}
    (reads : Reads head rest k) (start : Nat) :
    (startingAt start (head :: rest)).StandsAt start head rest k where
  reads := reads
  parts := ⟨{}, rfl, List.forall_mem_nil _, List.forall_mem_nil _⟩

/-- What stands behind a construct stands in the scan that reads the construct first. -/
theorem StandsAt.cons {s : Scan} {k k' : Construct} {offset i : Nat} {head head' : Char}
    {rest rest' : List Char} (reads : Reads head rest k)
    (ahead : ((head :: rest).drop k.taken).drop i = head' :: rest')
    (h : s.StandsAt (offset + k.taken + i) head' rest' k') :
    (cons k offset s).StandsAt (offset + k.taken + i) head' rest' k' := by
  obtain ⟨front, rfl, tokens, diagnostics⟩ := h.parts
  have size_le := k.size_le_taken
  refine ⟨h.reads, Scan.cons k offset front, (cons_followedBy _ _ _ _).symm, ?_, ?_⟩
  · rw [Scan.cons, List.forall_mem_cons]
    refine ⟨?_, tokens⟩
    show ((offset + k.size : Nat) : Int) ≤ _
    omega
  · rw [Scan.cons, List.forall_mem_append]
    constructor
    · refine List.forall_mem_map.mpr fun f fault => ?_
      show ((offset + f.start : Nat) : Int) < _ ∨ _
      rcases reads.contained_or_loneZero with before | ⟨c, behind, rfl, rfl, rfl, -, noNumber⟩
      · have := before f fault
        exact Or.inl (by omega)
      · obtain rfl := List.mem_singleton.mp fault
        cases i with
        | zero =>
          obtain ⟨rfl, rfl⟩ := List.cons.inj ahead
          exact Or.inr ⟨⟨offset, rfl, List.mem_cons_self, rfl⟩, noNumber k' h.reads⟩
        | succ i =>
          refine Or.inl ?_
          show ((offset + 1 : Nat) : Int) < ((offset + 1 + (i + 1) : Nat) : Int)
          omega
    · intro d mem
      rcases diagnostics d mem with before | ⟨⟨place, next, left⟩, noNumber⟩
      · exact Or.inl before
      · exact Or.inr ⟨⟨place, next, left.mono (List.subset_cons_self _ _)⟩, noNumber⟩

theorem startingAt_standsAt (offset : Nat) (text : List Char) :
    ∀ t ∈ (startingAt offset text).tokens, ∃ i head rest k, text.drop i = head :: rest ∧
      t = k.token (offset + i) ∧ (startingAt offset text).StandsAt (offset + i) head rest k := by
  have both := walk (P := fun offset text s => s = startingAt offset text ∧
      ∀ t ∈ s.tokens, ∃ i head rest k, text.drop i = head :: rest ∧ t = k.token (offset + i) ∧
        s.StandsAt (offset + i) head rest k)
    ?nil ?blank ?stop ?construct offset text
  · exact both.2
  case nil =>
    intro offset
    exact ⟨(startingAt_nil offset).symm, List.forall_mem_nil _⟩
  case blank =>
    intro offset c rest s blank ih
    refine ⟨ih.1.trans (startingAt_blank blank offset rest).symm, fun t mem => ?_⟩
    obtain ⟨i, head, rest, k, ahead, token, stands⟩ := ih.2 t mem
    rw [Nat.add_assoc, Nat.add_comm 1 i] at token stands
    exact ⟨i + 1, head, rest, k, ahead, token, stands⟩
  case stop =>
    intro offset c rest dark nothing
    exact ⟨(startingAt_stop dark nothing offset).symm, List.forall_mem_nil _⟩
  case construct =>
    intro offset c rest k s reads ih
    have whole : cons k offset s = startingAt offset (c :: rest) := by
      rw [startingAt_construct reads, ← ih.1]
    refine ⟨whole, List.forall_mem_cons.mpr ⟨?_, fun t mem => ?_⟩⟩
    · exact ⟨0, c, rest, k, rfl, rfl, whole ▸ standsAt_self reads offset⟩
    · obtain ⟨i, head, rest', k', ahead, token, stands⟩ := ih.2 t mem
      have behind := stands.cons reads ahead
      rw [List.drop_drop] at ahead
      rw [Nat.add_assoc] at token behind
      exact ⟨k.taken + i, head, rest', k', ahead, token, behind⟩

/-- Every token of a source text stands where a construct begins. -/
theorem ofText_standsAt {source : String} {t : Token} (mem : t ∈ (ofText source).tokens) :
    ∃ start head rest k, source.toList.drop start = head :: rest ∧ t = k.token start ∧
      (ofText source).StandsAt start head rest k := by
  obtain ⟨i, head, rest, k, ahead, token, stands⟩ := startingAt_standsAt 0 source.toList t mem
  rw [Nat.zero_add] at token stands
  exact ⟨i, head, rest, k, ahead, token, stands⟩

/-- The token that begins at an offset of a source text, by the text ahead there. -/
theorem ofText_standsAt_of_ahead {source : String} {t : Token} {start : Nat} {head : Char}
    {rest : List Char} (mem : t ∈ (ofText source).tokens) (begins : t.span.start = start)
    (ahead : source.toList.drop start = head :: rest) :
    ∃ k, t = k.token start ∧ (ofText source).StandsAt start head rest k := by
  obtain ⟨start', head', rest', k, ahead', rfl, stands⟩ := ofText_standsAt mem
  obtain rfl : start' = start := Int.ofNat.inj begins
  obtain ⟨rfl, rfl⟩ := List.cons.inj (ahead'.symm.trans ahead)
  exact ⟨k, rfl, stands⟩

section Stands

variable {s : Scan} {start : Nat} {head : Char} {rest : List Char} {k : Construct}

/-- On the characters of a construct are its own diagnostics, and perhaps in front of them that of
the zero which has left these characters to the construct. -/
theorem StandsAt.diagnosticsIn (h : s.StandsAt start head rest k) (contained : k.Contained) :
    ∃ shared, s.diagnosticsIn start k.taken = shared ++ k.diagnostics start ∧
      ∀ d ∈ shared, (∃ place, start = place + 1 ∧ s.LeftByZero place head d) ∧ k.kind ≠ .number := by
  obtain ⟨front, rfl, -, diagnostics⟩ := h.parts
  refine ⟨front.diagnosticsIn start k.taken, ?_, fun d mem => ?_⟩
  · rw [Scan.diagnosticsIn, followedBy, List.filter_append, startingAt_construct h.reads]
    congr 1
    exact diagnosticsIn_cons_self contained (startingAt_within _ _)
  · obtain ⟨mem, inside⟩ := List.mem_filter.mp mem
    rcases diagnostics d mem with before | ⟨⟨place, next, left⟩, noNumber⟩
    · exact absurd (of_decide_eq_true inside).1 (Int.not_le.mpr before)
    · exact ⟨⟨place, next, left.mono (List.subset_append_left _ _)⟩, noNumber⟩

/-- A diagnostic on a whole token is one of its construct, unless a zero has left it. -/
theorem StandsAt.own_of_span (h : s.StandsAt start head rest k) (contained : k.Contained)
    {d : Diagnostic} (mem : d ∈ s.diagnostics) (span : d.span = (k.token start).span)
    (kind : d.kind ≠ .invalidOrUnexpectedToken) : d ∈ k.diagnostics start := by
  have inside : d ∈ s.diagnosticsIn start k.taken := by
    have pos := k.taken_pos
    rw [Scan.diagnosticsIn, List.mem_filter, decide_eq_true_eq, Diagnostic.BeginsIn, span]
    refine ⟨mem, ?_⟩
    show (start : Int) ≤ (start : Int) ∧ (start : Int) < _
    omega
  obtain ⟨shared, own, others⟩ := h.diagnosticsIn contained
  rw [own, List.mem_append] at inside
  refine inside.resolve_left fun other => ?_
  obtain ⟨_, _, left⟩ := (others d other).1
  rw [left.report] at kind
  exact kind rfl

/-- The tokens behind that of a construct begin behind all that the construct takes. -/
theorem StandsAt.next (h : s.StandsAt start head rest k) {before after : List Token}
    (tokens : s.tokens = before ++ k.token start :: after) :
    ∀ u ∈ after, ((start + k.taken : Nat) : Int) ≤ u.span.start := by
  obtain ⟨front, rfl, stops, -⟩ := h.parts
  have behind := startingAt_within (start + k.taken) ((head :: rest).drop k.taken)
  have size_pos := k.size_pos
  have size_le := k.size_le_taken
  have notFront : k.token start ∉ front.tokens := by
    intro mem
    have stop : ((start + k.size : Nat) : Int) ≤ start := stops _ mem
    omega
  have notBehind :
      k.token start ∉ (startingAt (start + k.taken) ((head :: rest).drop k.taken)).tokens := by
    intro mem
    have first : ((start + k.taken : Nat) : Int) ≤ (start : Nat) := (behind.token _ mem).1
    omega
  rw [startingAt_construct h.reads, followedBy, Scan.cons] at tokens
  obtain ⟨-, -, rfl⟩ := (List.append_cons_inj_of_notMem notFront notBehind).mp tokens
  exact fun u mem => (behind.token u mem).1

/-- A construct up to the end of the text is the last. -/
theorem StandsAt.last (h : s.StandsAt start head rest k)
    (whole : k.taken = (head :: rest).length) :
    ∃ front : Scan, s.tokens = front.tokens ++ [k.token start] ∧
      s.diagnostics = front.diagnostics ++ k.diagnostics start := by
  obtain ⟨front, rfl, -, -⟩ := h.parts
  rw [startingAt_construct h.reads, whole, List.drop_length, startingAt_nil]
  refine ⟨front, rfl, ?_⟩
  rw [followedBy, Scan.cons, List.append_nil]

end Stands

/-! ## Numbers -/

/-- The number that begins at an offset of a source text, by the construct that begins there. -/
theorem ofText_number {source : String} {t : Token} {start : Nat} {head : Char} {rest : List Char}
    {k : Construct} (mem : t ∈ (ofText source).tokens) (number : t.kind = .number)
    (begins : t.span.start = start) (ahead : source.toList.drop start = head :: rest)
    (reads : Reads head rest k) (contained : k.Contained) :
    t = k.token start ∧ (ofText source).diagnosticsIn start k.taken = k.diagnostics start := by
  obtain ⟨k', rfl, stands⟩ := ofText_standsAt_of_ahead mem begins ahead
  obtain rfl := stands.reads.unique reads
  obtain ⟨shared, own, others⟩ := stands.diagnosticsIn contained
  have none : shared = [] :=
    List.eq_nil_iff_forall_not_mem.mpr fun d mem => (others d mem).2 number
  rw [own, none]
  exact ⟨rfl, rfl⟩

end Scan

end ScriptLexer
