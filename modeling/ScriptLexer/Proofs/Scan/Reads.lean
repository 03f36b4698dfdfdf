import ScriptLexer.Proofs.Token.Symbol

/-
  Which construct begins at a character, by what stands ahead. `Construct.Reads` has one case for
  each kind of construct with the condition under which it is chosen, and
  `Construct.atFront?_eq_some_iff` says that the scan chooses accordingly.
-/

namespace ScriptLexer.Construct

/-- A comment begins here, or a decimal that begins with its point. -/
inductive BeginsLonger : List Char → Prop
  | lineComment {body : List Char} : BeginsLonger ('/' :: '/' :: body)
  | blockComment {body : List Char} : BeginsLonger ('/' :: '*' :: body)
  | pointDecimal {next : Char} {rest : List Char} (digit : next.isDigit = true) :
    BeginsLonger ('.' :: next :: rest)

/-- The construct that begins with a character and goes on in the text behind it. -/
inductive Reads : Char → List Char → Construct → Prop
  | string {quote : Char} {rest : List Char} (opening : quote = '"' ∨ quote = '\'') :
    Reads quote rest (readString quote rest)
  | decimal {head : Char} {rest : List Char} (digit : head.isDigit = true)
    (nonzero : head ≠ '0') : Reads head rest (readDecimal head rest)
  | radix {letter : Char} {rest : List Char} {radix : Radix}
    (named : Radix.ofLetter? letter = some radix) : Reads '0' (letter :: rest) (readRadix radix rest)
  | legacyDecimal {head : Char} {rest : List Char} (beyond : head = '8' ∨ head = '9') :
    Reads '0' (head :: rest) (readLegacyDecimal head rest)
  | legacyOctal {head : Char} {rest : List Char} (octal : isOctalDigit head = true) :
    Reads '0' (head :: rest) (readLegacyOctal (head :: rest))
  | zeroPoint {next : Char} {rest : List Char} (digit : next.isDigit = true) :
    Reads '0' ('.' :: next :: rest) (readDecimal '0' ('.' :: next :: rest))
  | zero {rest : List Char} (boundary : AtBoundary rest) : Reads '0' rest (loneZero [])
  | zeroBefore {c : Char} {rest : List Char} (unnamed : Radix.ofLetter? c = none)
    (nonDigit : c.isDigit = false)
    (noFraction : c = '.' → rest.head?.any Char.isDigit = false) (dark : isBlank c = false) :
    Reads '0' (c :: rest) (loneZero [⟨.invalidOrUnexpectedToken, c, 1, 1⟩])
  | word {head : Char} {rest : List Char} (start : isIdentStart head = true) :
    Reads head rest (readWord head rest)
  | pointDecimal {next : Char} {rest : List Char} (digit : next.isDigit = true) :
    Reads '.' (next :: rest) (readDecimal '.' (next :: rest))
  | lineComment {body : List Char} : Reads '/' ('/' :: body) (readLineComment body)
  | blockComment {body : List Char} : Reads '/' ('*' :: body) (readBlockComment body)
  | symbol {head : Char} {rest : List Char} {s : Symbol} (longest : s.IsLongest (head :: rest))
    (shorter : ¬BeginsLonger (head :: rest)) : Reads head rest (readSymbol s)

/-! ## What the scan chooses -/

theorem reads_afterZero (rest : List Char) : Reads '0' rest (readAfterZero rest) := by
  unfold readAfterZero
  split
  · exact .zero atBoundary_nil
  · next c rest =>
    split
    · next radix named => exact .radix named
    · next unnamed =>
      split
      · next beyond => exact .legacyDecimal beyond
      split
      · next octal => exact .legacyOctal octal
      split
      · next fraction =>
        obtain ⟨rfl, digit⟩ := fraction
        cases rest with
        | nil => simp at digit
        | cons next rest => exact .zeroPoint (by simpa using digit)
      split
      · next blank => exact .zero (atBoundary_cons.mpr blank)
      · next beyond octal fraction dark =>
        have nonDigit : c.isDigit = false := by
          rw [← Bool.not_eq_true, isDigit_iff_octal]
          exact fun h => h.elim octal beyond
        refine .zeroBefore unnamed nonDigit ?_ (Bool.not_eq_true _ ▸ dark)
        rintro rfl
        exact Bool.not_eq_true _ ▸ fun digit => fraction ⟨rfl, digit⟩

theorem reads_number {head : Char} (rest : List Char) (digit : head.isDigit = true) :
    Reads head rest (readNumber head rest) := by
  unfold readNumber
  split
  · next zero => subst zero; exact reads_afterZero rest
  · next nonzero => exact .decimal digit nonzero

theorem reads_symbol {head : Char} {rest : List Char} {k : Construct}
    (h : atFront?.symbol head rest = some k) (shorter : ¬BeginsLonger (head :: rest)) :
    Reads head rest k := by
  unfold atFront?.symbol at h
  obtain ⟨s, found, rfl⟩ := Option.map_eq_some_iff.mp h
  exact .symbol (Symbol.atFront?_eq_some_iff.mp found) shorter

theorem reads_of_atFront? {head : Char} {rest : List Char} {k : Construct}
    (h : atFront? head rest = some k) : Reads head rest k := by
  unfold atFront? at h
  split at h
  · next opening => cases h; exact .string opening
  split at h
  · next digit => cases h; exact reads_number rest digit
  split at h
  · next start => cases h; exact .word start
  split at h
  · next next rest =>
    split at h
    · next digit => cases h; exact .pointDecimal digit
    · next nonDigit =>
      refine reads_symbol h ?_
      intro longer
      cases longer with
      | pointDecimal digit => exact nonDigit digit
  · cases h; exact .lineComment
  · cases h; exact .blockComment
  · next noPoint noLine noBlock =>
    refine reads_symbol h ?_
    intro longer
    cases longer with
    | lineComment => exact noLine _ rfl rfl
    | blockComment => exact noBlock _ rfl rfl
    | pointDecimal digit => exact noPoint _ _ rfl rfl

/-! ## The scan chooses nothing else -/

theorem atFront?_of_isDigit {head : Char} (rest : List Char) (digit : head.isDigit = true) :
    atFront? head rest = some (readNumber head rest) := by
  unfold atFront?
  rw [if_neg (not_quote_of_isDigit digit), if_pos digit]

theorem atFront?_zero (rest : List Char) : atFront? '0' rest = some (readAfterZero rest) := by
  rw [atFront?_of_isDigit rest (by decide), readNumber, if_pos rfl]

theorem ofLetter?_eq_none {c : Char} (h : isIdentStart c = false) : Radix.ofLetter? c = none := by
  cases found : Radix.ofLetter? c with
  | none => rfl
  | some radix =>
    rw [Radix.of_ofLetter? found] at h
    contradiction

theorem not_isIdentStart_of_isDigit {c : Char} (h : c.isDigit = true) :
    isIdentStart c = false := by
  rw [← Bool.not_eq_true]
  intro start
  rw [not_isDigit_of_isIdentStart start] at h
  contradiction

theorem readAfterZero_of_boundary {rest : List Char} (h : AtBoundary rest) :
    readAfterZero rest = loneZero [] := by
  cases rest with
  | nil => rfl
  | cons c rest =>
    rw [atBoundary_cons] at h
    have start : isIdentStart c = false := by
      rw [← Bool.not_eq_true]
      intro start
      rw [not_isBlank_of_isIdentStart start] at h
      contradiction
    have digit := not_isDigit_of_isBlank h
    have beyond : ¬(c = '8' ∨ c = '9') := fun h => by
      rw [isDigit_iff_octal.mpr (Or.inr h)] at digit
      contradiction
    have octal : ¬isOctalDigit c = true := fun h => by
      rw [isDigit_of_isOctalDigit h] at digit
      contradiction
    have point : ¬(c = '.' ∧ rest.head?.any Char.isDigit = true) := fun point => by
      rw [point.1] at h
      contradiction
    simp only [readAfterZero, ofLetter?_eq_none start, if_neg beyond, if_neg octal,
      if_neg point, if_pos h]

/-- What begins with nothing longer, quote, digit or letter is looked up among the symbols. -/
theorem atFront?_eq_symbol {head : Char} {rest : List Char} (quote : ¬(head = '"' ∨ head = '\''))
    (digit : ¬head.isDigit = true) (start : ¬isIdentStart head = true)
    (shorter : ¬BeginsLonger (head :: rest)) : atFront? head rest = atFront?.symbol head rest := by
  unfold atFront?
  rw [if_neg quote, if_neg digit, if_neg start]
  split
  · exact if_neg fun digit => shorter (.pointDecimal digit)
  · exact absurd .lineComment shorter
  · exact absurd .blockComment shorter
  · rfl

theorem atFront?_symbol {head : Char} {rest : List Char} {s : Symbol}
    (longest : s.IsLongest (head :: rest)) (shorter : ¬BeginsLonger (head :: rest)) :
    atFront? head rest = some (readSymbol s) := by
  obtain ⟨blank, digit, start, quote⟩ := Symbol.head_chars longest.fits
  rw [atFront?_eq_symbol quote (Bool.not_eq_true _ ▸ digit) (Bool.not_eq_true _ ▸ start) shorter,
    atFront?.symbol, Symbol.atFront?_eq_some_iff.mpr longest, Option.map_some]

theorem atFront?_of_reads {head : Char} {rest : List Char} {k : Construct}
    (h : Reads head rest k) : atFront? head rest = some k := by
  cases h with
  | string opening =>
    unfold atFront?
    rw [if_pos opening]
  | decimal digit nonzero =>
    rw [atFront?_of_isDigit rest digit, readNumber, if_neg nonzero]
  | radix named => simp only [atFront?_zero, readAfterZero, named]
  | legacyDecimal beyond =>
    rw [atFront?_zero]
    rcases beyond with rfl | rfl <;> rfl
  | @legacyOctal head rest octal =>
    have digit := isDigit_of_isOctalDigit octal
    have below : ¬(head = '8' ∨ head = '9') := by
      rintro (rfl | rfl) <;> exact absurd octal (by decide)
    simp only [atFront?_zero, readAfterZero, ofLetter?_eq_none (not_isIdentStart_of_isDigit digit),
      if_neg below, if_pos octal]
  | @zeroPoint next rest digit =>
    have unnamed : Radix.ofLetter? '.' = none := by decide
    simp only [atFront?_zero, readAfterZero, unnamed]
    rw [if_neg (by decide), if_neg (by decide), if_pos ⟨trivial, by simpa using digit⟩]
  | zero boundary => rw [atFront?_zero, readAfterZero_of_boundary boundary]
  | @zeroBefore c rest unnamed nonDigit noFraction dark =>
    have beyond : ¬(c = '8' ∨ c = '9') := fun h => by
      rw [isDigit_iff_octal.mpr (Or.inr h)] at nonDigit
      contradiction
    have octal : ¬isOctalDigit c = true := fun h => by
      rw [isDigit_of_isOctalDigit h] at nonDigit
      contradiction
    have fraction : ¬(c = '.' ∧ rest.head?.any Char.isDigit = true) := fun h => by
      rw [noFraction h.1] at h
      exact absurd h.2 Bool.false_ne_true
    simp only [atFront?_zero, readAfterZero, unnamed, if_neg beyond, if_neg octal,
      if_neg fraction, dark, Bool.false_eq_true, if_false]
  | word start =>
    unfold atFront?
    rw [if_neg (not_quote_of_isIdentStart start),
      if_neg (Bool.not_eq_true _ ▸ not_isDigit_of_isIdentStart start), if_pos start]
  | @pointDecimal next rest digit =>
    show (if next.isDigit then _ else _) = _
    rw [if_pos digit]
  | lineComment => rfl
  | blockComment => rfl
  | symbol longest shorter => exact atFront?_symbol longest shorter

/-- What the scan reads at a character is what the cases of `Reads` say. -/
theorem atFront?_eq_some_iff {head : Char} {rest : List Char} {k : Construct} :
    atFront? head rest = some k ↔ Reads head rest k :=
  ⟨reads_of_atFront?, atFront?_of_reads⟩

/-- No two constructs begin with the same text. -/
theorem Reads.unique {head : Char} {rest : List Char} {k k' : Construct} (h : Reads head rest k)
    (h' : Reads head rest k') : k = k' :=
  Option.some.inj ((atFront?_of_reads h).symm.trans (atFront?_of_reads h'))

theorem Reads.not_isBlank {head : Char} {rest : List Char} {k : Construct}
    (h : Reads head rest k) : isBlank head = false := by
  cases h with
  | string opening => exact not_isBlank_of_quote opening
  | decimal digit _ => exact not_isBlank_of_isDigit digit
  | word start => exact not_isBlank_of_isIdentStart start
  | symbol longest _ => exact (Symbol.head_chars longest.fits).1
  | _ => decide

end ScriptLexer.Construct
