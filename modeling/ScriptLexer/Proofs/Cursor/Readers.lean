import Mathlib.Data.List.DropRight
import ScriptLexer.Scan
import ScriptLexer.Proofs.Cursor.Basic

/-
  Reading with a cursor. Each reader begins behind the first character of its construct, goes
  forward character by character and reports what it cannot use; conversions of texts to numbers
  may fail, and then the literal is reported as a whole (`toNumber`). `Cursor.next` reads a token
  and `Cursor.Reaches` goes on until there are no more.
-/

namespace ScriptLexer

/-! ## Conversions -/

/-- The exponent without its sign. -/
def unsigned : List Char → List Char
  | [] => []
  | c :: rest => if isSign c then rest else c :: rest

/-- Nothing, or an exponent mark and a whole number. -/
def isExponentText : List Char → Bool
  | [] => true
  | mark :: rest =>
    isExponentMark mark && !(unsigned rest).isEmpty && (unsigned rest).all Char.isDigit

/-- Digits with at most one point, at least one of them, and then perhaps an exponent. -/
def isFloatText (text : List Char) : Bool :=
  let mantissa := text.takeWhile Decimal.isMantissa
  mantissa.any Char.isDigit && mantissa.count '.' ≤ 1 &&
    isExponentText (text.dropWhile Decimal.isMantissa)

/-- The number that a text denotes in decimal notation. -/
def floatOf? (text : List Char) : Option Binary64 :=
  if isFloatText text then some (decimalValue text) else none

/-- The number that a row of digits denotes in another base; beyond the finite numbers there is
infinity. -/
def Radix.floatOf? (radix : Radix) (digits : List Char) : Option Binary64 :=
  if digits.isEmpty || !digits.all radix.isDigit then none
  else some ((Binary64.ofInt? (wholeOfDigits radix.base digits)).getD (.infinity false))

/-- What is cut off a decimal before it is converted. -/
def isCutOff (c : Char) : Bool := isExponentMark c || isSign c

/-- What a token is, apart from where it stands. -/
structure Meaning where
  kind : TokenKind
  value : TokenValue := .none
  raw : Option String := none
deriving DecidableEq, Repr

namespace Cursor

/-! ## Numbers -/

/-- A converted number, or a report of the literal that begins at `start`. -/
def toNumber (number : Option Binary64) (start : Int) (c : Cursor) :
    Except Mishap (Binary64 × Cursor) :=
  match number with
  | some x => .ok (x, c)
  | none => do
    let char ← c.charAt start
    let c' ← c.report .invalidNumericLiteral char start (max c.lastPos (start + 1))
    .ok (.zero, c')

/-- Goes over a run, adds to the text what the marks keep and reports the rest. -/
def keepRun (mark : Char → Mark) (c : Cursor) (text : List Char) :
    Except Mishap (List Char × Cursor) :=
  match _ : c.peek 0 with
  | none => .ok (text, c)
  | some char =>
    if isBlank char then .ok (text, c)
    else match (mark char).fault with
      | none => keepRun mark c.move.commit (text ++ [char])
      | some kind =>
        match _ : c.move.stray kind char with
        | .error mishap => .error mishap
        | .ok c' => keepRun mark c' text
termination_by c.room
decreasing_by
  · exact room_lt ‹c.peek 0 = some char› rfl (Nat.lt_succ_self _)
  · obtain ⟨source, pos⟩ := report_source_pos ‹_ = Except.ok c'›
    exact room_lt ‹c.peek 0 = some char› source (pos ▸ Nat.lt_succ_self _)

/-- Takes the sign of an exponent if there is one. -/
def keepSign (c : Cursor) (text : List Char) : Cursor × List Char :=
  match c.peek 0 with
  | some char => if isSign char then (c.move.commit, text ++ [char]) else (c, text)
  | none => (c, text)

/-- Reports the last character of the text if the decimal ends with it. -/
def strayAtEnd (c : Cursor) (text : List Char) : Except Mishap Cursor :=
  if c.atBoundary then
    match text.getLast? with
    | some char => c.stray .invalidOrUnexpectedToken char
    | none => .error (.outside (-1))
  else .ok c

theorem strayAtEnd_source_pos {c c' : Cursor} {text : List Char}
    (h : c.strayAtEnd text = .ok c') : c'.source = c.source ∧ c'.pos = c.pos := by
  unfold strayAtEnd at h
  split at h
  · split at h
    · exact report_source_pos h
    · contradiction
  · cases h
    exact ⟨rfl, rfl⟩

theorem keepSign_source_pos (c : Cursor) (text : List Char) :
    (c.keepSign text).1.source = c.source ∧ c.pos ≤ (c.keepSign text).1.pos := by
  unfold keepSign
  split
  · split
    · exact ⟨rfl, Nat.le_succ _⟩
    · exact ⟨rfl, Nat.le_refl _⟩
  · exact ⟨rfl, Nat.le_refl _⟩

/-- Goes over the run of a decimal; one point and one exponent belong to it, the point first. -/
def decimalLoop (point mark : Bool) (c : Cursor) (text : List Char) :
    Except Mishap (List Char × Cursor) :=
  match _ : c.peek 0 with
  | none => .ok (text, c)
  | some char =>
    if isBlank char then .ok (text, c)
    else if char.isDigit then decimalLoop point mark c.move.commit (text ++ [char])
    else if char = '.' ∧ point = false ∧ mark = false then
      match _ : c.move.commit.strayAtEnd (text ++ [char]) with
      | .error mishap => .error mishap
      | .ok c' => decimalLoop true mark c' (text ++ [char])
    else if isExponentMark char ∧ mark = false then
      let signed := c.move.commit.keepSign (text ++ [char])
      match _ : signed.1.strayAtEnd signed.2 with
      | .error mishap => .error mishap
      | .ok c' => decimalLoop point true c' signed.2
    else
      match _ : c.move.stray .invalidOrUnexpectedToken char with
      | .error mishap => .error mishap
      | .ok c' => decimalLoop point mark c' text
termination_by c.room
decreasing_by
  · exact room_lt ‹c.peek 0 = some char› rfl (Nat.lt_succ_self _)
  · obtain ⟨source, pos⟩ := strayAtEnd_source_pos ‹_ = Except.ok c'›
    exact room_lt ‹c.peek 0 = some char› source (pos ▸ Nat.lt_succ_self _)
  · obtain ⟨source, pos⟩ := strayAtEnd_source_pos ‹_ = Except.ok c'›
    obtain ⟨source', pos'⟩ := keepSign_source_pos c.move.commit (text ++ [char])
    exact room_lt ‹c.peek 0 = some char› (source.trans source') (pos ▸ Nat.lt_of_lt_of_le (Nat.lt_succ_self _) pos')
  · obtain ⟨source, pos⟩ := report_source_pos ‹_ = Except.ok c'›
    exact room_lt ‹c.peek 0 = some char› source (pos ▸ Nat.lt_succ_self _)

/-- A decimal that begins with `head`; the literal begins at `start`. -/
def readDecimal (head : Char) (start : Int) (c : Cursor) : Except Mishap (Binary64 × Cursor) :=
  if (c.peek 0).any continuesDecimal then do
    let (text, c') ← c.decimalLoop (head == '.') false [head]
    c'.toNumber (floatOf? (text.rdropWhile isCutOff)) start
  else c.toNumber (floatOf? [head]) start

def readRadix (radix : Radix) (start : Int) (c : Cursor) : Except Mishap (Binary64 × Cursor) := do
  let (digits, c') ← c.keepRun radix.mark []
  c'.toNumber (radix.floatOf? digits) start

/-- A number by its first digit, which the cursor has gone over. -/
def readNumeric (lead : Char) (c : Cursor) : Except Mishap (Binary64 × Cursor) :=
  let start : Int := c.pos - 1
  if lead ≠ '0' then c.readDecimal lead start
  else match c.peek 0 with
  | none => .ok (.zero, c)
  | some next =>
    match Radix.ofLetter? next with
    | some radix => c.move.commit.readRadix radix start
    | none =>
      if next = '8' ∨ next = '9' then do
        let (x, c') ← c.move.commit.readDecimal next start
        let c'' ← c'.report .legacyDecimalEscape lead start c'.lastPos
        .ok (x, c'')
      else if isOctalDigit next then do
        let (x, c') ← c.readRadix .octal start
        let c'' ← c'.report .legacyOctalLiteral lead start c'.lastPos
        .ok (x, c'')
      else if next = '.' ∧ (c.peek 1).any Char.isDigit then c.readDecimal lead start
      else if isBlank next then .ok (.zero, c)
      else do
        let c' ← c.report .invalidOrUnexpectedToken next c.pos (c.pos + 1)
        .ok (.zero, c')

/-! ## Words, strings and comments -/

def readIdentifier (head : Char) (c : Cursor) : Except Mishap (Word × Cursor) := do
  let (text, c') ← c.keepRun wordMark [head]
  .ok (Word.ofText (String.ofList text), c')

/-- Goes on to the closing quote; the decoded text and the source text. -/
def stringLoop (quote : Char) (start : Int) (c : Cursor) (value raw : List Char) :
    Except Mishap ((List Char × List Char) × Cursor) :=
  match _ : c.peek 0 with
  | none => do
    let c' ← c.report .unterminatedString quote start c.pos
    .ok ((value, raw), c')
  | some char =>
    if char = '\\' then
      match c.move.peek 0 with
      | none => stringLoop quote start c.move.commit value (raw ++ [char])
      | some escaped =>
        stringLoop quote start c.move.move.commit (value ++ [unescape escaped])
          (raw ++ [char, escaped])
    else if char = quote then .ok ((value, raw ++ [char]), c.move.commit)
    else stringLoop quote start c.move.commit (value ++ [char]) (raw ++ [char])
termination_by c.room
decreasing_by
  · exact room_lt ‹c.peek 0 = some char› rfl (Nat.lt_succ_self _)
  · exact room_lt ‹c.peek 0 = some char› rfl (Nat.lt_succ_of_lt (Nat.lt_succ_self _))
  · exact room_lt ‹c.peek 0 = some char› rfl (Nat.lt_succ_self _)

/-- Goes over the next line terminator or to the end of the text. -/
def lineLoop (c : Cursor) : Cursor :=
  match _ : c.peek 0 with
  | none => c
  | some char => if isLineTerminator char then c.move else lineLoop c.move
termination_by c.room
decreasing_by exact room_lt ‹c.peek 0 = some char› rfl (Nat.lt_succ_self _)

/-- Goes over the next star and slash or to the end of the text. -/
def blockLoop (start : Int) (c : Cursor) : Except Mishap Cursor :=
  match _ : c.peek 0 with
  | none => c.report .unterminatedComment '*' start c.pos
  | some char =>
    if char = '*' ∧ c.move.peek 0 = some '/' then .ok c.move.move else blockLoop start c.move
termination_by c.room
decreasing_by exact room_lt ‹c.peek 0 = some char› rfl (Nat.lt_succ_self _)

/-! ## Tokens -/

/-- The symbol that begins with `char`; if there is none, the character is reported and nothing
more is read. -/
def readSymbol (char : Char) (c : Cursor) : Except Mishap (Option Meaning × Cursor) :=
  match Symbol.atFront? (char :: c.ahead) with
  | some s =>
    .ok (some { kind := s.kind, value := s.value },
      { c with pos := c.pos + (s.text.length - 1) }.commit)
  | none => do
    let c' ← c.stray .unexpectedToken char
    .ok (none, c')

/-- The construct that begins with `char`, which the cursor has gone over. -/
def readMeaning (char : Char) (c : Cursor) : Except Mishap (Option Meaning × Cursor) :=
  if char = '"' ∨ char = '\'' then do
    let ((value, raw), c') ← c.stringLoop char (c.pos - 1) [] [char]
    .ok (some ⟨.string, .text (String.ofList value), some (String.ofList raw)⟩, c')
  else if char.isDigit then do
    let (x, c') ← c.readNumeric char
    .ok (some { kind := .number, value := .number x }, c')
  else if isIdentStart char then do
    let (word, c') ← c.readIdentifier char
    .ok (some { kind := .word, value := .word word }, c')
  else if char = '.' ∧ (c.peek 0).any Char.isDigit then do
    let (x, c') ← c.readDecimal char (c.pos - 1)
    .ok (some { kind := .number, value := .number x }, c')
  else if char = '/' ∧ c.peek 0 = some '/' then
    .ok (some { kind := .lineComment }, c.move.commit.lineLoop.commit)
  else if char = '/' ∧ c.peek 0 = some '*' then do
    let c' ← c.move.commit.blockLoop (c.move.pos - 2)
    .ok (some { kind := .blockComment }, c'.commit)
  else c.readSymbol char

def skipBlanks (c : Cursor) : Cursor :=
  match _ : c.peek 0 with
  | none => c
  | some char => if isBlank char then skipBlanks c.move else c
termination_by c.room
decreasing_by exact room_lt ‹c.peek 0 = some char› rfl (Nat.lt_succ_self _)

/-- The next token, or none at the end of what can be read. -/
def next (c : Cursor) : Except Mishap (Option Token × Cursor) :=
  let first := c.skipBlanks
  match first.peek 0 with
  | none => do
    let _ ← spanOf first.pos first.commit.lastPos
    .ok (none, first.commit)
  | some char => do
    let (meaning, last) ← first.move.commit.readMeaning char
    let span ← spanOf first.pos last.lastPos
    .ok (meaning.map fun m => ⟨m.kind, span, m.value, m.raw⟩, last)

/-- The cursor reads these tokens and then no more, without a mishap. -/
inductive Reaches : Cursor → List Token → Cursor → Prop
  | done {c c' : Cursor} (step : c.next = .ok (none, c')) : Reaches c [] c'
  | token {c c' last : Cursor} {t : Token} {tokens : List Token}
    (step : c.next = .ok (some t, c')) (behind : Reaches c' tokens last) :
    Reaches c (t :: tokens) last

end Cursor

end ScriptLexer
