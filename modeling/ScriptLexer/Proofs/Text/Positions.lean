import Mathlib.Data.Prod.Lex
import Mathlib.Data.Set.Function
import ScriptLexer.Proofs.Text.Lines

/-
  Positions and lines. `positionAt` counts the breaks up to an offset and `splitLines` those of the
  whole text. Where no break is cut in two, a text is cut into the lines in front, the two parts of
  one line and the lines behind (`exists_cutLines`), and both count the same; inside a break the
  place is that behind it (`Position.EndsText.inside`). So places and lines agree
  (`positionAt_splitLines`).
-/

namespace ScriptLexer

/-! ## Breaks -/

/-- The line breaks of a text in their order. -/
def lineBreaks : List Char → List (List Char)
  | [] => []
  | '\r' :: '\n' :: rest => ['\r', '\n'] :: lineBreaks rest
  | c :: rest => if c = '\r' ∨ c = '\n' then [c] :: lineBreaks rest else lineBreaks rest

/-- The lines of a text with their breaks, without the last line, which has none. -/
def brokenLines (text : List Char) : List (List Char) :=
  List.zipWith (· ++ ·) (splitLines text) (lineBreaks text)

/-- The characters are a break in front of the text. -/
structure BreaksBefore (ending rest : List Char) : Prop where
  lines : splitLines (ending ++ rest) = [] :: splitLines rest
  breaks : lineBreaks (ending ++ rest) = ending :: lineBreaks rest

theorem breaksBefore_pair (rest : List Char) : BreaksBefore ['\r', '\n'] rest :=
  ⟨splitLines_pair rest, by rw [List.cons_append, List.singleton_append, lineBreaks]⟩

theorem breaksBefore_single {c : Char} {rest : List Char} (whole : Unbroken [c] rest)
    (ends : c = '\r' ∨ c = '\n') : BreaksBefore [c] rest := by
  refine ⟨splitLines_break whole ends, ?_⟩
  rw [List.singleton_append, lineBreaks, if_pos ends]
  rintro behind rfl rfl
  exact unbroken_singleton.mp whole ⟨rfl, rfl⟩

theorem lineBreaks_cons {c : Char} (inside : ¬(c = '\r' ∨ c = '\n')) (rest : List Char) :
    lineBreaks (c :: rest) = lineBreaks rest := by
  rw [lineBreaks, if_neg inside]
  exact fun _ ret => absurd (Or.inl ret) inside

theorem splitLines_cons {c : Char} (inside : ¬(c = '\r' ∨ c = '\n')) {rest line : List Char}
    {lines : List (List Char)} (split : splitLines rest = line :: lines) :
    splitLines (c :: rest) = (c :: line) :: lines := by
  rw [splitLines, if_neg inside, split]
  exact fun _ ret => absurd (Or.inl ret) inside

/-! ## Cuts -/

/-- A text that is cut between `front` and `behind`, but not inside a break: the lines before the
line that is cut, its two parts, and the lines after it. -/
structure CutLines (front behind : List Char) (before : List (List Char)) (last next : List Char)
    (after : List (List Char)) : Prop where
  linesFront : splitLines front = before ++ [last]
  lines : splitLines (front ++ behind) = before ++ (last ++ next) :: after
  count : before.length = (lineBreaks front).length
  breaks : lineBreaks (front ++ behind) = lineBreaks front ++ lineBreaks behind
  text : front = (List.zipWith (· ++ ·) before (lineBreaks front)).flatten ++ last

section Cut

variable {front behind last next : List Char} {before after : List (List Char)}

/-- A break in front is one more line before. -/
theorem CutLines.behindBreak (h : CutLines front behind before last next after)
    {ending : List Char} (first : BreaksBefore ending front)
    (whole : BreaksBefore ending (front ++ behind)) :
    CutLines (ending ++ front) behind ([] :: before) last next after where
  linesFront := by rw [first.lines, h.linesFront, List.cons_append]
  lines := by rw [List.append_assoc, whole.lines, h.lines, List.cons_append]
  count := by rw [first.breaks, List.length_cons, List.length_cons, h.count]
  breaks := by rw [List.append_assoc, whole.breaks, h.breaks, first.breaks, List.cons_append]
  text := by
    rw [first.breaks, List.zipWith_cons_cons, List.nil_append, List.flatten_cons,
      List.append_assoc, ← h.text]

/-- Any other character in front belongs to the first line. -/
theorem CutLines.cons (h : CutLines front behind before last next after) {c : Char}
    (inside : ¬(c = '\r' ∨ c = '\n')) :
    ∃ before' last', CutLines (c :: front) behind before' last' next after := by
  have breaks := lineBreaks_cons inside
  cases before with
  | nil =>
    have none : lineBreaks front = [] := List.length_eq_zero_iff.mp h.count.symm
    refine ⟨[], c :: last, splitLines_cons inside h.linesFront, splitLines_cons inside h.lines,
      ?_, ?_, ?_⟩
    · rw [breaks, none]
    · rw [List.cons_append, breaks, breaks, h.breaks]
    · rw [breaks]
      exact congrArg (c :: ·) h.text
  | cons line before =>
    obtain ⟨ending, endings, some⟩ := List.exists_cons_of_length_eq_add_one h.count.symm
    refine ⟨(c :: line) :: before, last, splitLines_cons inside h.linesFront,
      splitLines_cons inside h.lines, ?_, ?_, ?_⟩
    · rw [breaks, ← h.count, List.length_cons, List.length_cons]
    · rw [List.cons_append, breaks, breaks, h.breaks]
    · have text := h.text
      rw [some] at text
      rw [breaks, some]
      exact congrArg (c :: ·) text

theorem exists_cutLines (whole : Unbroken front behind) :
    ∃ before last next after, CutLines front behind before last next after := by
  induction front using breaksInduction with
  | nil =>
    obtain ⟨next, after, e⟩ := List.exists_cons_of_ne_nil (splitLines_ne_nil behind)
    exact ⟨[], [], next, after, rfl, e, rfl, rfl, rfl⟩
  | pair rest ih =>
    obtain ⟨before, last, next, after, h⟩ := ih whole.of_cons.of_cons
    exact ⟨_, _, _, _, h.behindBreak (breaksBefore_pair rest) (breaksBefore_pair _)⟩
  | single c rest apart ih =>
    obtain ⟨before, last, next, after, h⟩ := ih whole.of_cons
    by_cases ends : c = '\r' ∨ c = '\n'
    · exact ⟨_, _, _, _, h.behindBreak (breaksBefore_single apart ends)
        (breaksBefore_single (apart.singleton_append whole) ends)⟩
    · obtain ⟨before', last', h'⟩ := h.cons ends
      exact ⟨_, _, _, _, h'⟩

end Cut

/-- Inside a break the lines are those behind it. -/
theorem splitLines_inside {front behind : List Char} (broken : ¬Unbroken front behind) :
    splitLines (front ++ ['\n']) = splitLines front := by
  obtain ⟨ret, -⟩ := not_not.mp broken
  obtain ⟨text, rfl⟩ := List.getLast?_eq_some_iff.mp ret
  have apart (behind : List Char) : Unbroken text ('\r' :: behind) :=
    unbroken_of_head? (by simp) text
  rw [← splitLines_normalizeBreaks, ← splitLines_normalizeBreaks (text ++ ['\r']),
    List.append_assoc, List.singleton_append, normalizeBreaks_append (apart _),
    normalizeBreaks_append (apart _)]
  rfl

/-! ## Positions -/

namespace Position

/-- Line and column, compared by the line first. -/
def place (p : Position) : Nat ×ₗ Nat := toLex (p.line, p.column)

/-- The position is on a line of the text, on one of its characters or at its end. -/
structure InLines (p : Position) (text : List Char) : Prop where
  line_pos : 1 ≤ p.line
  line_le : p.line ≤ (splitLines text).length
  column_pos : 1 ≤ p.column
  column_le : p.column ≤ ((splitLines text).getD (p.line - 1) []).length + 1

/-- All lines before that of the position, with their breaks, and its own up to the column. -/
def textBefore (p : Position) (text : List Char) : List Char :=
  ((brokenLines text).take (p.line - 1)).flatten ++
    ((splitLines text).getD (p.line - 1) []).take (p.column - 1)

/-- The position is at the end of a text. -/
structure EndsText (p : Position) (front : List Char) : Prop where
  line : p.line = (splitLines front).length
  column : p.column = ((splitLines front).getLastD []).length + 1

section EndsText

variable {p : Position} {front behind last next : List Char} {before after : List (List Char)}

/-- The place of a cut, by the lines around it. -/
theorem EndsText.of_cut (ends : p.EndsText front)
    (h : CutLines front behind before last next after) :
    p.line = before.length + 1 ∧ p.column = last.length + 1 ∧
      (splitLines (front ++ behind)).getD (p.line - 1) [] = last ++ next := by
  have line : p.line = before.length + 1 := by
    rw [ends.line, h.linesFront, List.length_append, List.length_singleton]
  refine ⟨line, ?_, ?_⟩
  · rw [ends.column, h.linesFront, List.getLastD_concat]
  · rw [line, Nat.add_sub_cancel, h.lines, List.getD_eq_getElem?_getD,
      List.getElem?_append_right (Nat.le_refl _), Nat.sub_self]
    rfl

/-- Inside a break the place is that behind it. -/
theorem EndsText.inside (ends : p.EndsText front) (broken : ¬Unbroken front behind) :
    p.EndsText (front ++ ['\n']) :=
  ⟨splitLines_inside broken ▸ ends.line, splitLines_inside broken ▸ ends.column⟩

/-- Every place is one where no break is cut. -/
theorem EndsText.exists_unbroken (ends : p.EndsText front) (behind : List Char) :
    ∃ front' behind', front ++ behind = front' ++ behind' ∧ Unbroken front' behind' ∧
      p.EndsText front' := by
  by_cases whole : Unbroken front behind
  · exact ⟨front, behind, rfl, whole, ends⟩
  · obtain ⟨-, feed⟩ := not_not.mp whole
    obtain ⟨behind', rfl⟩ := List.head?_eq_some_iff.mp feed
    refine ⟨front ++ ['\n'], behind', ?_, ?_, ends.inside whole⟩
    · rw [List.append_assoc, List.singleton_append]
    · exact unbroken_of_getLast? (by rw [List.getLast?_concat]; decide) behind'

theorem EndsText.inLines (ends : p.EndsText front) (behind : List Char) :
    p.InLines (front ++ behind) := by
  obtain ⟨front', behind', e, whole, ends'⟩ := ends.exists_unbroken behind
  obtain ⟨before, last, next, after, cut⟩ := exists_cutLines whole
  obtain ⟨line, column, own⟩ := ends'.of_cut cut
  rw [e]
  constructor
  case line_pos => omega
  case line_le =>
    rw [cut.lines, List.length_append, List.length_cons]
    omega
  case column_pos => omega
  case column_le =>
    rw [own, List.length_append]
    omega

theorem EndsText.textBefore (ends : p.EndsText front) (whole : Unbroken front behind) :
    p.textBefore (front ++ behind) = front := by
  obtain ⟨before, last, next, after, cut⟩ := exists_cutLines whole
  obtain ⟨line, column, own⟩ := ends.of_cut cut
  have length : (List.zipWith (· ++ ·) before (lineBreaks front)).length = before.length := by
    rw [List.length_zipWith, ← cut.count, Nat.min_self]
  have lines : (brokenLines (front ++ behind)).take (p.line - 1) =
      List.zipWith (· ++ ·) before (lineBreaks front) := by
    rw [brokenLines, cut.lines, cut.breaks, List.zipWith_append cut.count, line,
      Nat.add_sub_cancel, ← length, List.take_left]
  rw [Position.textBefore, lines, own, column, Nat.add_sub_cancel, List.take_left]
  exact cut.text.symm

variable {p' : Position} {c : Char}

theorem EndsText.place_eq (ends : p.EndsText front) (ends' : p'.EndsText front) :
    p.place = p'.place := by
  rw [place, place, ends.line, ends'.line, ends.column, ends'.column]

/-- One more character moves a place on, or leaves it where it is. -/
theorem EndsText.place_le (ends : p.EndsText front) (ends' : p'.EndsText (front ++ [c])) :
    p.place ≤ p'.place := by
  by_cases whole : Unbroken front [c]
  · obtain ⟨before, last, next, after, cut⟩ := exists_cutLines whole
    obtain ⟨line, column, -⟩ := ends.of_cut cut
    have line' := ends'.line
    have column' := ends'.column
    rw [cut.lines, List.length_append, List.length_cons] at line'
    rw [place, place, Prod.Lex.toLex_le_toLex]
    cases after with
    | nil =>
      rw [cut.lines, List.getLastD_concat, List.length_append] at column'
      rw [List.length_nil] at line'
      refine Or.inr ⟨?_, ?_⟩ <;> dsimp only <;> omega
    | cons line after =>
      rw [List.length_cons] at line'
      refine Or.inl ?_
      dsimp only
      omega
  · obtain ⟨-, feed⟩ := not_not.mp whole
    obtain rfl : c = '\n' := Option.some.inj feed
    exact le_of_eq ((ends.inside whole).place_eq ends')

end EndsText

/-- The text before a position is given by its place alone. -/
theorem textBefore_congr {p p' : Position} (same : p.place = p'.place) (text : List Char) :
    p.textBefore text = p'.textBefore text := by
  have line : p.line = p'.line := congrArg (fun place => (ofLex place).1) same
  have column : p.column = p'.column := congrArg (fun place => (ofLex place).2) same
  rw [textBefore, textBefore, line, column]

end Position

section Source

variable (source : List Char)

theorem positionAt_endsText (k : Nat) : (positionAt source k).EndsText (source.take k) := by
  have inside : source.take (clampOffset source.length k) = source.take k :=
    List.take_eq_take_min.symm
  rw [← inside]
  exact ⟨rfl, rfl⟩

/-- Offsets in front of the source stand for its beginning. -/
theorem positionAt_toNat (offset : Int) : positionAt source offset = positionAt source offset.toNat :=
  rfl

theorem positionAt_place_le {offset offset' : Int} (le : offset ≤ offset') :
    (positionAt source offset).place ≤ (positionAt source offset').place := by
  have steps : Monotone fun k : Nat => (positionAt source k).place := by
    refine monotone_nat_of_le_succ fun k => ?_
    have here := positionAt_endsText source k
    have next := positionAt_endsText source (k + 1)
    rw [List.take_add_one] at next
    cases found : source[k]? with
    | none =>
      rw [found, Option.toList_none, List.append_nil] at next
      exact le_of_eq (here.place_eq next)
    | some c =>
      rw [found] at next
      exact here.place_le next
  exact steps (Int.toNat_le_toNat le)

/-- The offsets of a source that are not inside one of its breaks. -/
def unbrokenOffsets : Set Nat :=
  {k | k ≤ source.length ∧ Unbroken (source.take k) (source.drop k)}

theorem positionAt_textBefore {k : Nat} (mem : k ∈ unbrokenOffsets source) :
    (positionAt source k).textBefore source = source.take k := by
  have before := (positionAt_endsText source k).textBefore mem.2
  rwa [List.take_append_drop] at before

theorem positionAt_inLines (offset : Int) : (positionAt source offset).InLines source := by
  rw [positionAt_toNat]
  have inLines := (positionAt_endsText source offset.toNat).inLines (source.drop offset.toNat)
  rwa [List.take_append_drop] at inLines

theorem positionAt_place_injOn :
    (unbrokenOffsets source).InjOn fun k : Nat => (positionAt source k).place := by
  intro k mem k' mem' same
  have text : source.take k = source.take k' := by
    rw [← positionAt_textBefore source mem, ← positionAt_textBefore source mem']
    exact Position.textBefore_congr same source
  have length := congrArg List.length text
  rwa [List.length_take_of_le mem.1, List.length_take_of_le mem'.1] at length

/-- Every offset has a place on one of the lines, and further on in the source none that comes
before. The text up to an offset that is not inside a break is made up of the lines before its
place, with their breaks, and of as many characters of its own line as the column says; so each
such offset has a place of its own. -/
theorem positionAt_splitLines :
    (∀ offset : Int,
      ((positionAt source offset).offset : Int) = max 0 (min offset source.length) ∧
      (positionAt source offset).InLines source) ∧
    (∀ offset offset' : Int, offset ≤ offset' →
      (positionAt source offset).place ≤ (positionAt source offset').place) ∧
    (∀ k ∈ unbrokenOffsets source, (positionAt source k).textBefore source = source.take k) ∧
    (unbrokenOffsets source).InjOn fun k : Nat => (positionAt source k).place := by
  refine ⟨fun offset => ⟨?_, positionAt_inLines source offset⟩,
    fun _ _ le => positionAt_place_le source le, fun _ mem => positionAt_textBefore source mem,
    positionAt_place_injOn source⟩
  show ((min offset.toNat source.length : Nat) : Int) = _
  omega

/-- A break of two characters, another of one, and a break at the end. -/
theorem positionAt_splitLines_mixed :
    (positionAt "a\r\n\rb\n".toList 3).textBefore "a\r\n\rb\n".toList = "a\r\n".toList ∧
    (positionAt "a\r\n\rb\n".toList 2).place ≤ (positionAt "a\r\n\rb\n".toList 3).place ∧
    (positionAt "a\r\n\rb\n".toList 3).place ≠ (positionAt "a\r\n\rb\n".toList 4).place := by
  have third : 3 ∈ unbrokenOffsets "a\r\n\rb\n".toList := ⟨by decide, by decide⟩
  have fourth : 4 ∈ unbrokenOffsets "a\r\n\rb\n".toList := ⟨by decide, by decide⟩
  obtain ⟨-, place_le, textBefore, injective⟩ := positionAt_splitLines "a\r\n\rb\n".toList
  exact ⟨textBefore 3 third, place_le 2 3 (by decide), injective.ne third fourth (by decide)⟩

end Source

end ScriptLexer
