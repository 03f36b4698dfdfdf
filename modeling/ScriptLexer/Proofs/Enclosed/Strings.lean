import Mathlib.Algebra.Group.Nat.Even
import Mathlib.Data.List.DropRight
import ScriptLexer.Proofs.Grammar.Acceptance
import ScriptLexer.Proofs.Scan.Coverage
import ScriptLexer.Proofs.Scan.Faithful
import ScriptLexer.Proofs.Scan.Placed

/-
  String literals. A string ends with the first of its quotes that has an even number of
  backslashes in front, or goes on to the end of the source, and stands for what its body decodes
  to (`stringBody_ends`); only in the second case it is reported (`Scan.ofText_string`). Each text
  has literals, as many as there are ways to spell its characters, and all of them are read back
  (`Scan.ofText_spelled`).
-/

namespace ScriptLexer

/-! ## Escapes -/

/-- What a backslash and the character behind it stand for. -/
inductive Escape : Char → Char → Prop
  | newline : Escape 'n' '\n'
  | carriageReturn : Escape 'r' '\r'
  | tab : Escape 't' '\t'
  | itself {c : Char} (other : c ≠ 'n' ∧ c ≠ 'r' ∧ c ≠ 't') : Escape c c

theorem escape_iff {c d : Char} : Escape c d ↔ d = unescape c := by
  constructor
  · intro escape
    cases escape with
    | newline | carriageReturn | tab => rfl
    | itself other =>
      unfold unescape
      split
      · exact absurd rfl other.1
      · exact absurd rfl other.2.1
      · exact absurd rfl other.2.2
      · rfl
  · rintro rfl
    unfold unescape
    split
    · exact .newline
    · exact .carriageReturn
    · exact .tab
    · next newline carriageReturn tab => exact .itself ⟨newline, carriageReturn, tab⟩

/-- The text that the body of a string stands for, from left to right. A backslash at its end
stands for nothing. -/
inductive Decodes : List Char → List Char → Prop
  | nil : Decodes [] []
  | last : Decodes ['\\'] []
  | plain {c : Char} {body value : List Char} (unescaped : c ≠ '\\') (behind : Decodes body value) :
    Decodes (c :: body) (c :: value)
  | escaped {c d : Char} {body value : List Char} (escape : Escape c d)
    (behind : Decodes body value) : Decodes ('\\' :: c :: body) (d :: value)

theorem Decodes.unique {body value value' : List Char} (h : Decodes body value)
    (h' : Decodes body value') : value = value' := by
  induction h generalizing value' with
  | nil =>
    cases h'
    rfl
  | last =>
    cases h' with
    | last => rfl
    | plain unescaped => exact absurd rfl unescaped
  | plain unescaped _ ih =>
    cases h' with
    | last => exact absurd rfl unescaped
    | plain _ behind => rw [ih behind]
    | escaped => exact absurd rfl unescaped
  | escaped escape _ ih =>
    cases h' with
    | plain unescaped => exact absurd rfl unescaped
    | escaped escape' behind => rw [ih behind, escape_iff.mp escape, escape_iff.mp escape']

theorem Decodes.text_iff {body value : List Char} (h : Decodes body value) (value' : List Char) :
    Decodes body value' ↔
      TokenValue.text (String.ofList value) = .text (String.ofList value') := by
  rw [TokenValue.text.injEq, String.ofList_inj]
  constructor
  · exact h.unique
  · rintro rfl
    exact h

/-! ## The closing quote -/

/-- The number of backslashes at the end of a text. -/
def backslashes (text : List Char) : Nat := (text.rtakeWhile (· == '\\')).length

theorem backslashes_concat (text : List Char) (c : Char) :
    backslashes (text ++ [c]) = if c = '\\' then backslashes text + 1 else 0 := by
  unfold backslashes
  split
  · next backslash => rw [List.rtakeWhile_concat_pos _ _ _ (by simpa using backslash),
      List.length_append, List.length_singleton]
  · next plain => rw [List.rtakeWhile_concat_neg _ _ _ (by simpa using plain), List.length_nil]

theorem backslashes_cons {c : Char} (plain : c ≠ '\\') (text : List Char) :
    backslashes (c :: text) = backslashes text := by
  induction text using List.reverseRecOn with
  | nil =>
    rw [← List.nil_append [c], backslashes_concat, if_neg plain]
    rfl
  | append_singleton text d ih =>
    rw [← List.cons_append, backslashes_concat, backslashes_concat, ih]

/-- A backslash and the character behind it keep the parity. -/
theorem even_backslashes_escaped (c : Char) (text : List Char) :
    Even (backslashes ('\\' :: c :: text)) ↔ Even (backslashes text) := by
  induction text using List.reverseRecOn with
  | nil =>
    have pair : backslashes ['\\', c] = if c = '\\' then 2 else 0 := backslashes_concat ['\\'] c
    rw [pair]
    split <;> decide
  | append_singleton text d ih =>
    rw [← List.cons_append, ← List.cons_append, backslashes_concat, backslashes_concat]
    split
    · rw [Nat.even_add_one, Nat.even_add_one, ih]
    · rfl

/-- The character at the place `n` behind the opening quote is one that closes the string. -/
def Closes (quote : Char) (text : List Char) (n : Nat) : Prop :=
  text[n]? = some quote ∧ Even (backslashes (text.take n))

instance (quote : Char) (text : List Char) (n : Nat) : Decidable (Closes quote text n) :=
  inferInstanceAs (Decidable (_ ∧ _))

/-- The first place that closes the string. -/
def ClosesFirst (quote : Char) (text : List Char) (n : Nat) : Prop :=
  Closes quote text n ∧ ∀ m < n, ¬Closes quote text m

instance (quote : Char) (text : List Char) (n : Nat) : Decidable (ClosesFirst quote text n) :=
  inferInstanceAs (Decidable (_ ∧ ∀ m < n, _))

section Closes

variable {quote c : Char} {text : List Char}

theorem closes_cons_zero : Closes quote (c :: text) 0 ↔ c = quote := by
  simp [Closes, backslashes]

theorem closes_cons (plain : c ≠ '\\') (other : c ≠ quote) (m : Nat) :
    Closes quote ([c] ++ text) m ↔ ∃ k, m = k + 1 ∧ Closes quote text k := by
  cases m with
  | zero =>
    refine iff_of_false (fun closes => other (closes_cons_zero.mp closes)) ?_
    rintro ⟨k, zero, -⟩
    omega
  | succ m =>
    have shifted : Closes quote (c :: text) (m + 1) ↔ Closes quote text m := by
      rw [Closes, List.getElem?_cons_succ, List.take_succ_cons, backslashes_cons plain, Closes]
    simpa using shifted

theorem closes_escaped (unescaped : quote ≠ '\\') (m : Nat) :
    Closes quote (['\\', c] ++ text) m ↔ ∃ k, m = k + 2 ∧ Closes quote text k := by
  match m with
  | 0 =>
    refine iff_of_false (fun closes => unescaped (closes_cons_zero.mp closes).symm) ?_
    rintro ⟨k, zero, -⟩
    omega
  | 1 =>
    -- the backslash itself stands in front of the second character
    refine iff_of_false (fun closes => absurd closes.2 ?_) ?_
    · show ¬Even (backslashes ['\\'])
      decide
    · rintro ⟨k, one, -⟩
      omega
  | m + 2 =>
    have shifted : Closes quote ('\\' :: c :: text) (m + 2) ↔ Closes quote text m := by
      rw [Closes, List.getElem?_cons_succ, List.getElem?_cons_succ, List.take_succ_cons,
        List.take_succ_cons, even_backslashes_escaped, Closes]
    simpa using shifted

theorem ClosesFirst.unique {n n' : Nat} (h : ClosesFirst quote text n)
    (h' : ClosesFirst quote text n') : n = n' := by
  rcases Nat.lt_trichotomy n n' with below | same | above
  · exact absurd h.1 (h'.2 n below)
  · exact same
  · exact absurd h'.1 (h.2 n' above)

/-- The first quote is escaped, the second has an escaped backslash in front. -/
example : ClosesFirst '\'' "a\\'\\\\' b".toList 5 := by decide +kernel

end Closes

/-! ## The body of a string -/

/-- How the body of a string ends, and what it stands for: with the first place that closes it, or
nowhere. -/
inductive StringBody.Ends (b : StringBody) (quote : Char) (text : List Char) : Prop
  | closed {n : Nat} (first : ClosesFirst quote text n) (closed : b.closed = true)
    (length : b.length = n + 1) (value : Decodes (text.take n) b.value)
  | opened (never : ∀ n, ¬Closes quote text n) (opened : b.closed = false)
    (length : b.length = text.length) (value : Decodes text b.value)

/-- A character that is put in front, as it is spelled, moves all places. -/
theorem StringBody.Ends.cons {b : StringBody} {quote c : Char} {text : List Char}
    (h : b.Ends quote text) (front : List Char)
    (shift : ∀ m, Closes quote (front ++ text) m ↔
      ∃ k, m = k + front.length ∧ Closes quote text k)
    (decodes : ∀ body value, Decodes body value → Decodes (front ++ body) (c :: value)) :
    (b.cons c front.length).Ends quote (front ++ text) := by
  cases h with
  | @closed n first closed length value =>
    have behind : (front ++ text).take (n + front.length) = front ++ text.take n := by
      rw [Nat.add_comm, List.take_length_add_append]
    refine .closed ⟨(shift _).mpr ⟨n, rfl, first.1⟩, fun m below closes => ?_⟩ closed ?_ ?_
    · obtain ⟨k, rfl, earlier⟩ := (shift m).mp closes
      exact first.2 k (by omega) earlier
    · show front.length + b.length = _
      omega
    · rw [behind]
      exact decodes _ _ value
  | opened never opened length value =>
    refine .opened (fun m closes => ?_) opened ?_ (decodes _ _ value)
    · obtain ⟨k, -, earlier⟩ := (shift m).mp closes
      exact never k earlier
    · show front.length + b.length = _
      rw [length, List.length_append]

theorem stringBody_ends {quote : Char} (unescaped : quote ≠ '\\') (text : List Char) :
    (stringBody quote text).Ends quote text := by
  fun_induction stringBody quote text with
  | case1 =>
    refine .opened (fun n closes => ?_) rfl rfl .nil
    exact absurd closes.1 (by simp)
  | case2 =>
    refine .opened (fun n closes => ?_) rfl rfl .last
    have there := List.mem_of_getElem? closes.1
    exact unescaped (List.mem_singleton.mp there)
  | case3 c rest ih =>
    exact ih.cons ['\\', c] (closes_escaped unescaped)
      fun _ _ => .escaped (escape_iff.mpr rfl)
  | case4 rest last pair =>
    refine .closed ⟨closes_cons_zero.mpr rfl, fun m below => ?_⟩ rfl rfl .nil
    omega
  | case5 c rest last pair other ih =>
    have plain := ne_backslash last pair
    exact ih.cons [c] (closes_cons plain other) fun _ _ => .plain plain

/-! ## Strings of a source text -/

/-- Only at a quote a string is read. -/
theorem Construct.Reads.string_of_kind {head : Char} {rest : List Char} {k : Construct}
    (reads : Construct.Reads head rest k) (string : k.kind = .string) :
    (head = '"' ∨ head = '\'') ∧ k = readString head rest := by
  cases reads with
  | string opening => exact ⟨opening, rfl⟩
  | @symbol _ _ s _ _ => exact absurd string s.kind_ne.2.1
  | _ => exact TokenKind.noConfusion string

theorem readString_diagnostics (quote : Char) (rest : List Char) (start : Nat) :
    (readString quote rest).diagnostics start = if (stringBody quote rest).closed then [] else
      [⟨.unterminatedString, quote.toString, ((readString quote rest).token start).span⟩] := by
  unfold Construct.diagnostics readString
  dsimp only
  split <;> rfl

/-- The token is a string that begins with the quote at `start`, with `text` behind that. -/
structure Token.OpensString (t : Token) (source : String) (start : Nat) (quote : Char)
    (text : List Char) : Prop where
  kind : t.kind = .string
  opening : quote = '"' ∨ quote = '\''
  begins : t.span.start = start
  ahead : source.toList.drop start = quote :: text

namespace Scan

/-- How a scan reads a string: up to the first place that closes it, or else up to the end of the
source with a report, and by what the body decodes to. -/
structure ReadsString (s : Scan) (source : String) (t : Token) (start : Nat) (quote : Char)
    (text : List Char) : Prop where
  raw : t.raw = some (String.ofList (covered source.toList t))
  closed : ∀ n, ClosesFirst quote text n → t.span.stop = ((start + (n + 2) : Nat) : Int) ∧
    ∀ value, Decodes (text.take n) value ↔ t.value = .text (String.ofList value)
  opened : (∀ n, ¬Closes quote text n) → t.span.stop = source.length ∧
    s.tokens.getLast? = some t ∧
    s.diagnostics.filter (·.kind = .unterminatedString) =
      [⟨.unterminatedString, quote.toString, t.span⟩] ∧
    ∀ value, Decodes text value ↔ t.value = .text (String.ofList value)

/-- An open string is the last token, and the only string that is reported. -/
theorem StandsAt.open_string {source : String} {start : Nat} {quote : Char} {text : List Char}
    (h : (ofText source).StandsAt start quote text (readString quote text))
    (opened : (stringBody quote text).closed = false) :
    (ofText source).tokens.getLast? = some ((readString quote text).token start) ∧
      (ofText source).diagnostics.filter (·.kind = .unterminatedString) =
        [⟨.unterminatedString, quote.toString, ((readString quote text).token start).span⟩] := by
  have whole : (readString quote text).taken = (quote :: text).length := by
    show 1 + (stringBody quote text).length = text.length + 1
    rw [stringBody_length_of_open (Bool.not_eq_true _ ▸ opened), Nat.add_comm]
  have own := readString_diagnostics quote text start
  rw [opened, if_neg Bool.false_ne_true] at own
  obtain ⟨front, tokens, diagnostics⟩ := h.last whole
  have final : (ofText source).diagnostics.Pairwise fun d _ => d.kind.isUnterminated = false :=
    (startingAt_faithful 0 source.toList).final
  rw [diagnostics, own, List.pairwise_append] at final
  have others : ∀ d ∈ front.diagnostics, ¬decide (d.kind = .unterminatedString) = true := by
    intro d mem same
    have ended := final.2.2 d mem _ List.mem_cons_self
    rw [of_decide_eq_true same] at ended
    contradiction
  refine ⟨by rw [tokens, List.getLast?_concat], ?_⟩
  rw [diagnostics, own, List.filter_append, List.filter_eq_nil_iff.mpr others]
  rfl

theorem StandsAt.readsString {source : String} {start : Nat} {quote : Char} {text : List Char}
    (opening : quote = '"' ∨ quote = '\'') (ahead : source.toList.drop start = quote :: text)
    (h : (ofText source).StandsAt start quote text (readString quote text)) :
    (ofText source).ReadsString source ((readString quote text).token start) start quote text := by
  have unescaped := not_backslash_of_quote opening
  constructor
  case raw =>
    rw [covered_token, ahead]
    rfl
  case closed =>
    intro n first
    cases stringBody_ends unescaped text with
    | closed first' closed length value =>
      obtain rfl := first.unique first'
      refine ⟨?_, value.text_iff⟩
      show ((start + (1 + (stringBody quote text).length) : Nat) : Int) = _
      rw [length, Nat.add_comm 1]
    | opened never => exact absurd first.1 (never n)
  case opened =>
    intro never
    cases stringBody_ends unescaped text with
    | closed first => exact absurd first.1 (never _)
    | opened _ opened length value =>
      obtain ⟨last, report⟩ := h.open_string opened
      refine ⟨?_, last, report, value.text_iff⟩
      have room := congrArg List.length ahead
      rw [List.length_drop, String.length_toList, List.length_cons] at room
      show ((start + (1 + (stringBody quote text).length) : Nat) : Int) = _
      omega

/-- A string that is reported as open never is closed, and the report is its own. -/
theorem StandsAt.never_closes {s : Scan} {start : Nat} {quote : Char} {text : List Char}
    (opening : quote = '"' ∨ quote = '\'')
    (h : s.StandsAt start quote text (readString quote text)) {d : Diagnostic}
    (mem : d ∈ s.diagnostics) (kind : d.kind = .unterminatedString)
    (span : d.span = ((readString quote text).token start).span) :
    (∀ n, ¬Closes quote text n) ∧ d = ⟨.unterminatedString, quote.toString, d.span⟩ := by
  have own : d ∈ (readString quote text).diagnostics start :=
    h.own_of_span (Construct.readString_contained quote text) mem span (kind ▸ nofun)
  rw [readString_diagnostics] at own
  cases stringBody_ends (not_backslash_of_quote opening) text with
  | closed _ closed =>
    rw [if_pos closed] at own
    contradiction
  | opened never opened =>
    rw [opened, if_neg Bool.false_ne_true, List.mem_singleton, ← span] at own
    exact ⟨never, own⟩

/-- A string goes up to the first of its quotes with an even number of backslashes in front and
is kept as it stands in the source. Its value is what the text between the quotes decodes to. If
there is no such quote it goes up to the end of the source, where it is the last token, and is
reported; there is no such report in any other case. -/
theorem ofText_string (source : String) :
    (∀ t ∈ (ofText source).tokens, t.kind = .string → ∃ start quote text,
      t.OpensString source start quote text ∧
        (ofText source).ReadsString source t start quote text) ∧
    ∀ d ∈ (ofText source).diagnostics, d.kind = .unterminatedString →
      ∃ t ∈ (ofText source).tokens, ∃ start quote text, t.OpensString source start quote text ∧
        (∀ n, ¬Closes quote text n) ∧ d = ⟨.unterminatedString, quote.toString, t.span⟩ := by
  constructor
  · intro t mem string
    obtain ⟨start, quote, text, k, ahead, rfl, stands⟩ := ofText_standsAt mem
    obtain ⟨opening, rfl⟩ := stands.reads.string_of_kind string
    exact ⟨start, quote, text, ⟨rfl, opening, rfl, ahead⟩, stands.readsString opening ahead⟩
  · intro d mem kind
    obtain ⟨t, final, span, string, -⟩ :=
      pointsIn_of_isUnterminated ((startingAt_faithful 0 source.toList).points d mem) (kind ▸ rfl)
    have mem' := List.mem_of_getLast? final
    obtain ⟨start, quote, text, k, ahead, rfl, stands⟩ := ofText_standsAt mem'
    obtain ⟨opening, rfl⟩ := stands.reads.string_of_kind (string kind)
    obtain ⟨never, own⟩ := stands.never_closes opening mem kind span
    exact ⟨_, mem', start, quote, text, ⟨rfl, opening, rfl, ahead⟩, never, span ▸ own⟩

/-- A closed string with escaped quotes and an open one that ends with a backslash. -/
theorem ofText_string_escaped :
    (∃ start quote text,
      Token.OpensString ⟨.string, Span.cover 0 7, .text "a'\\", some "'a\\'\\\\'"⟩
        "'a\\'\\\\' \"b\\" start quote text ∧
      (ofText "'a\\'\\\\' \"b\\").ReadsString "'a\\'\\\\' \"b\\"
        ⟨.string, Span.cover 0 7, .text "a'\\", some "'a\\'\\\\'"⟩ start quote text) ∧
    ∃ t ∈ (ofText "'a\\'\\\\' \"b\\").tokens, ∃ start quote text,
      t.OpensString "'a\\'\\\\' \"b\\" start quote text ∧ (∀ n, ¬Closes quote text n) ∧
      (⟨.unterminatedString, "\"", Span.cover 8 3⟩ : Diagnostic) =
        ⟨.unterminatedString, quote.toString, t.span⟩ :=
  ⟨(ofText_string "'a\\'\\\\' \"b\\").1 _ (by decide +kernel) rfl,
    (ofText_string "'a\\'\\\\' \"b\\").2 _ (by decide +kernel) rfl⟩

end Scan

/-! ## Spellings -/

/-- The ways to spell a character between quotes: as it is, or with a backslash. -/
inductive Spelling (quote : Char) : Char → List Char → Prop
  | plain {c : Char} (other : c ≠ quote) (unescaped : c ≠ '\\') : Spelling quote c [c]
  | escaped {c d : Char} (escape : Escape d c) : Spelling quote c ['\\', d]

theorem exists_spelling {quote : Char} (opening : quote = '"' ∨ quote = '\'') (c : Char) :
    ∃ piece, Spelling quote c piece := by
  by_cases letter : c = 'n' ∨ c = 'r' ∨ c = 't'
  · refine ⟨[c], .plain ?_ ?_⟩
    · rintro rfl
      rcases letter with rfl | rfl | rfl <;> exact absurd opening (by decide)
    · rintro rfl
      exact absurd letter (by decide)
  · rw [not_or, not_or] at letter
    exact ⟨['\\', c], .escaped (.itself letter)⟩

theorem exists_spellings {quote : Char} (opening : quote = '"' ∨ quote = '\'')
    (value : List Char) : ∃ pieces, List.Forall₂ (Spelling quote) value pieces := by
  induction value with
  | nil => exact ⟨[], .nil⟩
  | cons c value ih =>
    obtain ⟨piece, spelled⟩ := exists_spelling opening c
    obtain ⟨pieces, behind⟩ := ih
    exact ⟨piece :: pieces, .cons spelled behind⟩

/-- The string literal of spelled characters. -/
def literal (quote : Char) (pieces : List (List Char)) : List Char :=
  quote :: (pieces.flatten ++ [quote])

theorem stringText_of_spellings {quote : Char} {value : List Char} {pieces : List (List Char)}
    (spelled : List.Forall₂ (Spelling quote) value pieces) :
    StringText quote pieces.flatten value := by
  induction spelled with
  | nil => exact .nil
  | cons first _ ih =>
    rw [List.flatten_cons]
    cases first with
    | plain other unescaped => exact .plain other unescaped ih
    | escaped escape =>
      rw [escape_iff.mp escape]
      exact .escaped ih

namespace Scan

/-- Every text has a literal in either quote, and each way to spell its characters makes one: the
source is a single string with this text and without a diagnostic. -/
theorem ofText_spelled {quote : Char} (opening : quote = '"' ∨ quote = '\'') (value : String) :
    (∃ pieces, List.Forall₂ (Spelling quote) value.toList pieces) ∧
    ∀ pieces, List.Forall₂ (Spelling quote) value.toList pieces →
      ofText (String.ofList (literal quote pieces)) =
        ⟨[⟨.string, Span.cover 0 (literal quote pieces).length, .text value,
          some (String.ofList (literal quote pieces))⟩], [], none⟩ := by
  refine ⟨exists_spellings opening value.toList, fun pieces spelled => ?_⟩
  have read := ofText_of_lexeme (.string opening (stringText_of_spellings spelled))
  rwa [String.ofList_toList] at read

/-- Escapes that have to be, one that need not and one by letter. -/
theorem ofText_spelled_escaped :
    ofText "'it\\'\\s\\n'" =
      ⟨[⟨.string, Span.cover 0 10, .text "it's\n", some "'it\\'\\s\\n'"⟩], [], none⟩ := by
  have pieces : List.Forall₂ (Spelling '\'') "it's\n".toList
      [['i'], ['t'], ['\\', '\''], ['\\', 's'], ['\\', 'n']] :=
    .cons (.plain (by decide) (by decide)) <| .cons (.plain (by decide) (by decide)) <|
      .cons (.escaped (.itself (by decide))) <| .cons (.escaped (.itself (by decide))) <|
        .cons (.escaped .newline) .nil
  have read := (ofText_spelled (Or.inr rfl) "it's\n").2 _ pieces
  exact read

end Scan

end ScriptLexer
