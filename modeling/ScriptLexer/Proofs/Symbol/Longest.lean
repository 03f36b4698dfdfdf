import ScriptLexer.Proofs.Scan.Placed
import ScriptLexer.Proofs.Scan.Stop

/-
  Punctuators and operators of a source text. A token is one of them exactly where a character
  that leads a symbol begins neither a comment nor a number, and then it is the entry of the
  table with the longest text that stands there (`Scan.ofText_symbol`), whatever the order in
  which a reader looks for its suffixes.
-/

namespace ScriptLexer

/-- The kinds of punctuators and operators. -/
def TokenKind.isOfSymbol : TokenKind → Bool
  | punctuator _ | assignOp | binaryOp => true
  | _ => false

theorem Symbol.isOfSymbol_kind (s : Symbol) : s.kind.isOfSymbol = true := by
  cases s <;> rfl

/-- The character is the first of a symbol. -/
def Symbol.Leads (c : Char) : Prop := ∃ s : Symbol, s.text.toList.head? = some c

theorem Symbol.Leads.mem_symbolChars {c : Char} (h : Leads c) : c ∈ symbolChars := by
  obtain ⟨s, first⟩ := h
  exact Symbol.mem_symbolChars (List.mem_of_mem_head? first)

theorem Symbol.leads_of_fits {s : Symbol} {c : Char} {rest : List Char}
    (fits : s.text.toList <+: c :: rest) : Leads c := by
  refine ⟨s, ?_⟩
  rw [List.head?_eq_some_head s.toList_text_ne_nil, fits.head s.toList_text_ne_nil]
  rfl

namespace Construct

/-- Only a symbol has the kind of one. -/
theorem Reads.symbol_of_kind {head : Char} {rest : List Char} {k : Construct}
    (reads : Reads head rest k) (ofSymbol : k.kind.isOfSymbol = true) :
    ∃ s : Symbol, k = readSymbol s ∧ s.IsLongest (head :: rest) ∧ ¬BeginsLonger (head :: rest) := by
  cases reads with
  | symbol longest shorter => exact ⟨_, rfl, longest, shorter⟩
  | _ => exact absurd ofSymbol Bool.false_ne_true

/-- A symbol is read exactly where one can begin and nothing longer does. -/
theorem Reads.isOfSymbol_iff {head : Char} {rest : List Char} {k : Construct}
    (reads : Reads head rest k) :
    k.kind.isOfSymbol = true ↔ Symbol.Leads head ∧ ¬BeginsLonger (head :: rest) := by
  constructor
  · intro ofSymbol
    obtain ⟨s, -, longest, shorter⟩ := reads.symbol_of_kind ofSymbol
    exact ⟨Symbol.leads_of_fits longest.fits, shorter⟩
  · rintro ⟨leads, shorter⟩
    obtain ⟨s, reads'⟩ := exists_reads_symbol leads.mem_symbolChars shorter
    rw [reads.unique reads']
    exact s.isOfSymbol_kind

end Construct

namespace Scan

/-- The token at `start` is the entry of the table whose text is the longest that stands there,
and no other entry has that text. -/
structure ReadsSymbol (source : List Char) (t : Token) (start : Nat) (s : Symbol) : Prop where
  entry : s ∈ Symbol.table
  longest : s.IsLongest (source.drop start)
  covered : covered source t = s.text.toList
  token : t = ⟨s.kind, Span.cover start s.text.length, s.value, none⟩
  only : ∀ s' ∈ Symbol.table, s'.text.toList = Scan.covered source t → s' = s

theorem readsSymbol_token {source : List Char} {start : Nat} {s : Symbol}
    (longest : s.IsLongest (source.drop start)) :
    ReadsSymbol source ((readSymbol s).token start) start s := by
  have covered : covered source ((readSymbol s).token start) = s.text.toList := by
    obtain ⟨rest, ahead⟩ := longest.fits
    rw [covered_token, ← ahead]
    show (s.text.toList ++ rest).take s.text.length = _
    rw [← String.length_toList, List.take_left]
  constructor
  case entry => exact s.mem_table
  case longest => exact longest
  case covered => exact covered
  case token => rfl
  case only =>
    intro s' _ same
    rw [covered] at same
    exact Symbol.eq_of_text_eq (String.toList_inj.mp same)

/-- A token is a punctuator or an operator exactly if it begins with a character that leads one
and with neither `//` nor `/*` nor a point and a digit. It then covers the longest text of the
table that stands where it begins, and has the kind and the value of the one entry with this
text. -/
theorem ofText_symbol {source : String} {t : Token} (mem : t ∈ (ofText source).tokens) :
    ∃ (start : Nat) (head : Char) (rest : List Char), t.span.start = start ∧
      source.toList.drop start = head :: rest ∧
      (t.kind.isOfSymbol = true ↔
        Symbol.Leads head ∧ ¬Construct.BeginsLonger (head :: rest)) ∧
      (t.kind.isOfSymbol = true → ∃ s : Symbol, ReadsSymbol source.toList t start s) := by
  obtain ⟨start, head, rest, k, ahead, rfl, stands⟩ := ofText_standsAt mem
  refine ⟨start, head, rest, rfl, ahead, stands.reads.isOfSymbol_iff, fun ofSymbol => ?_⟩
  obtain ⟨s, rfl, longest, -⟩ := stands.reads.symbol_of_kind ofSymbol
  exact ⟨s, readsSymbol_token (ahead ▸ longest)⟩

/-- Among other operators, four characters of which each shorter beginning is one as well. -/
theorem ofText_symbol_adjacent :
    ∃ s : Symbol, ReadsSymbol "+++>>>==..".toList
      ⟨.assignOp, Span.cover 3 4, .assign .zeroFillRightShift, none⟩ 3 s := by
  obtain ⟨start, head, rest, begins, -, -, reads⟩ := @ofText_symbol "+++>>>==.."
    ⟨.assignOp, Span.cover 3 4, .assign .zeroFillRightShift, none⟩ (by decide +kernel)
  obtain rfl : 3 = start := Int.ofNat.inj begins
  exact reads rfl

end Scan

end ScriptLexer
