import ScriptLexer.Proofs.Grammar.Acceptance
import ScriptLexer.Proofs.Scan.Coverage
import ScriptLexer.Proofs.Cursor.Readers

/-
  Other gaps between the same tokens. What follows a lexeme matters only up to the next boundary,
  so a lexeme stays one in front of any blank (`Lexeme.of_boundary`), and token texts that were
  adjacent may be pulled apart (`Splits.exists_respaced`). Only a comment that ends with the source
  has to stay the last.
-/

namespace ScriptLexer

/-! ## Lexemes in front of a boundary -/

theorem Symbol.IsLongest.of_boundary {s : Symbol} {follow follow' : List Char}
    (longest : s.IsLongest (s.text.toList ++ follow)) (boundary : AtBoundary follow') :
    s.IsLongest (s.text.toList ++ follow') := by
  rw [Symbol.isLongest_append_iff boundary]
  refine ⟨List.prefix_refl _, fun s' fits => longest.longest s' ?_⟩
  exact fits.trans (List.prefix_append _ _)

theorem Construct.BeginsLonger.of_boundary {text follow follow' : List Char}
    (longer : BeginsLonger (text ++ follow')) (boundary : AtBoundary follow') :
    BeginsLonger (text ++ follow) := by
  obtain ⟨l, start, fits⟩ := beginsLonger_iff.mp longer
  rw [Symbol.prefix_append_iff start.not_isBlank boundary] at fits
  exact beginsLonger_iff.mpr ⟨l, start, fits.trans (List.prefix_append _ _)⟩

/-- A lexeme stays one in front of any boundary, at the end if it was at the end. -/
theorem Lexeme.of_boundary {text follow follow' : List Char} {kind : TokenKind}
    {value : TokenValue} {raw : Option String} (lexeme : Lexeme text follow kind value raw)
    (boundary : AtBoundary follow') (last : follow = [] → follow' = []) :
    Lexeme text follow' kind value raw := by
  cases lexeme with
  | word start part _ => exact .word start part boundary
  | zero _ => exact .zero boundary
  | radix named some all _ => exact .radix named some all boundary
  | digit digit nonzero _ =>
    refine .digit digit nonzero fun c mem goes => ?_
    have blank := boundary c mem
    rw [not_isBlank_of_continues (continuesDecimal_iff.mpr goes)] at blank
    contradiction
  | decimal decimal _ => exact .decimal decimal boundary
  | string opening inner => exact .string opening inner
  | lineComment inner ends => exact .lineComment inner ends
  | lastLineComment inner =>
    rw [last rfl]
    exact .lastLineComment inner
  | blockComment inner => exact .blockComment inner
  | symbol longest shorter =>
    exact .symbol (longest.of_boundary boundary)
      fun longer => shorter (longer.of_boundary boundary)

/-! ## Rows of blanks and lexemes -/

def Token.meaning (t : Token) : Meaning := ⟨t.kind, t.value, t.raw⟩

/-- One blank or more. -/
def IsGap (gap : List Char) : Prop := gap ≠ [] ∧ ∀ c ∈ gap, isBlank c = true

instance (gap : List Char) : Decidable (IsGap gap) :=
  decidable_of_iff (gap ≠ [] ∧ gap.all isBlank = true)
    (and_congr_right fun _ => List.all_eq_true)

theorem IsGap.atBoundary_append {gap : List Char} (h : IsGap gap) (rest : List Char) :
    AtBoundary (gap ++ rest) := by
  obtain ⟨c, gap, rfl⟩ := List.exists_cons_of_ne_nil h.1
  exact atBoundary_cons.mpr (h.2 c List.mem_cons_self)

theorem Splits.append_blank {offset : Nat} {gap rest : List Char} {tokens : List Token}
    (blank : ∀ c ∈ gap, isBlank c = true)
    (behind : Splits (offset + gap.length) rest tokens) : Splits offset (gap ++ rest) tokens := by
  induction gap generalizing offset with
  | nil => exact behind
  | cons c gap ih =>
    rw [List.forall_mem_cons] at blank
    rw [List.length_cons, ← Nat.add_assoc, Nat.add_right_comm] at behind
    exact .blank blank.1 (ih blank.2 behind)

theorem Splits.eq_nil {offset : Nat} {tokens : List Token} (splits : Splits offset [] tokens) :
    tokens = [] := by
  have scanned := Scan.startingAt_of_splits splits
  rw [Scan.startingAt_nil] at scanned
  exact congrArg Scan.tokens scanned.symm

namespace Scan

theorem weave_cons (gap : List Char) (gaps texts : List (List Char)) :
    weave (gap :: gaps) texts = gap ++ weave ([] :: gaps) texts := by
  cases texts <;> rfl

end Scan

open Scan (weave covered weave_cons covered_eq)

/-- The token texts of a row of blanks and lexemes, with other gaps between them, are a row of the
same lexemes. -/
theorem Splits.exists_respaced {source text : List Char} {offset : Nat} {tokens : List Token}
    (splits : Splits offset text tokens) (ahead : source.drop offset = text)
    {gaps : List (List Char)} (count : gaps.length = tokens.length - 1)
    (blank : ∀ gap ∈ gaps, IsGap gap) (offset' : Nat) :
    ∃ tokens', Splits offset' (weave ([] :: gaps) (tokens.map (covered source))) tokens' ∧
      tokens'.map Token.meaning = tokens.map Token.meaning := by
  induction splits generalizing gaps offset' with
  | nil =>
    obtain rfl := List.eq_nil_of_length_eq_zero count
    exact ⟨[], .nil, rfl⟩
  | blank _ _ ih =>
    refine ih ?_ count blank offset'
    rw [← List.drop_drop, ahead, List.drop_one, List.tail_cons]
  | @lexeme offset text follow kind value raw tokens lexeme behind ih =>
    have own : covered source ⟨kind, Span.cover offset text.length, value, raw⟩ = text :=
      covered_eq ahead rfl
    rw [List.map_cons, own]
    cases gaps with
    | nil =>
      obtain rfl : tokens = [] := List.eq_nil_of_length_eq_zero count.symm
      have alone := lexeme.of_boundary atBoundary_nil fun _ => rfl
      refine ⟨[⟨kind, Span.cover offset' text.length, value, raw⟩], ?_, rfl⟩
      show Splits offset' (text ++ []) _
      exact .lexeme alone .nil
    | cons gap gaps =>
      rw [List.forall_mem_cons] at blank
      have more : tokens ≠ [] := by
        rintro rfl
        contradiction
      have ahead' : source.drop (offset + text.length) = follow := by
        rw [← List.drop_drop, ahead, List.drop_left]
      have count' : gaps.length = tokens.length - 1 := by
        rw [List.length_cons, List.length_cons] at count
        omega
      obtain ⟨tokens', splits', same⟩ :=
        ih ahead' count' blank.2 (offset' + text.length + gap.length)
      have apart : Lexeme text (gap ++ weave ([] :: gaps) (tokens.map (covered source)))
          kind value raw := by
        refine lexeme.of_boundary (blank.1.atBoundary_append _) ?_
        rintro rfl
        exact absurd behind.eq_nil more
      refine ⟨⟨kind, Span.cover offset' text.length, value, raw⟩ :: tokens', ?_, ?_⟩
      · show Splits offset' (text ++ weave (gap :: gaps) (tokens.map (covered source))) _
        rw [weave_cons]
        exact .lexeme apart (.append_blank blank.1.2 splits')
      · rw [List.map_cons, List.map_cons, same]
        rfl

/-! ## The whole source -/

namespace Scan

/-- The token texts of a source in their order, with the given gaps between them. -/
def respaced (source : String) (gaps : List String) : String :=
  .ofList (weave ([] :: gaps.map String.toList)
    ((ofText source).tokens.map (covered source.toList)))

/-- If a source has no diagnostic, its token texts with any blanks between them, at least one at
each place, have none either, and are read as the same tokens. -/
theorem ofText_respaced (source : String) (clean : (ofText source).diagnostics = [])
    (gaps : List String) (count : gaps.length = (ofText source).tokens.length - 1)
    (blank : ∀ gap ∈ gaps, IsGap gap.toList) :
    (ofText (respaced source gaps)).diagnostics = [] ∧
    (ofText (respaced source gaps)).tokens.map Token.meaning =
      (ofText source).tokens.map Token.meaning := by
  have splits : Splits 0 source.toList (ofText source).tokens := startingAt_splits 0 _ clean
  have count : (gaps.map String.toList).length = (ofText source).tokens.length - 1 := by
    rw [List.length_map, count]
  have blank : ∀ gap ∈ gaps.map String.toList, IsGap gap := List.forall_mem_map.mpr blank
  have ahead : source.toList.drop 0 = source.toList := List.drop_zero
  obtain ⟨tokens, splits', same⟩ := splits.exists_respaced ahead count blank 0
  have scanned : ofText (respaced source gaps) = ⟨tokens, [], none⟩ := by
    rw [ofText, respaced, String.toList_ofList, startingAt_of_splits splits']
  rw [scanned]
  exact ⟨rfl, same⟩

/-- A digit in front of a symbol, dots that are no ellipsis, and a line comment of which the
terminator is one half of a line break. -/
theorem ofText_respaced_adjacent :
    respaced "(7=>.5 //x\r\n'\\\n'../**/" [" ", "\n", "\t", " ", "\r\n", " ", " \u00a0", "\ufeff"] =
      "( 7\n=>\t.5 //x\r\r\n'\\\n' . \u00a0.\ufeff/**/" ∧
    (ofText "( 7\n=>\t.5 //x\r\r\n'\\\n' . \u00a0.\ufeff/**/").diagnostics = [] ∧
    (ofText "( 7\n=>\t.5 //x\r\r\n'\\\n' . \u00a0.\ufeff/**/").tokens.map Token.meaning =
      (ofText "(7=>.5 //x\r\n'\\\n'../**/").tokens.map Token.meaning := by
  have apart : respaced "(7=>.5 //x\r\n'\\\n'../**/"
      [" ", "\n", "\t", " ", "\r\n", " ", " \u00a0", "\ufeff"] =
        "( 7\n=>\t.5 //x\r\r\n'\\\n' . \u00a0.\ufeff/**/" := by decide +kernel
  have same := ofText_respaced "(7=>.5 //x\r\n'\\\n'../**/" (by decide +kernel)
    [" ", "\n", "\t", " ", "\r\n", " ", " \u00a0", "\ufeff"] (by decide +kernel)
    (by decide +kernel)
  rw [apart] at same
  exact ⟨apart, same⟩

end Scan

end ScriptLexer
