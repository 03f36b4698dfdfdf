import ScriptLexer.Dump
import ScriptLexer.Proofs.Number.ReadBack
import ScriptLexer.Proofs.Json.Render
import ScriptLexer.Proofs.Text.Quoted
import ScriptLexer.Proofs.Token.Content

/-
  Lines of text dumps. The line of a token has its title, what stands between brackets behind that,
  and its span (`TokenContent.toList_line`); each of the three can be told from the line, and they
  say what the token is (`TokenContent.line_inj`). A line has no line feed, so the lines can be told
  from the dump (`dumpText_inj`).
-/

namespace ScriptLexer

namespace TokenContent

/-! ## Titles -/

/-- What a line begins with. -/
def title : TokenContent → String
  | number _ => "Number"
  | string _ _ => "String"
  | word s => (Word.ofText s).kind.title
  | lineComment => TokenKind.lineComment.label
  | blockComment => TokenKind.blockComment.label
  | symbol (.punctuator p) => p.label
  | symbol (.assign _) => "AssignOp"
  | symbol (.binary _) => "BinaryOp"

/-- What stands between the brackets, if there are any. -/
def inside : TokenContent → Option (List Char)
  | number x => some (NumberLayout.standard.write x).toList
  | string s source => some ((quoted s).toList ++ ", raw=".toList ++ (quoted source).toList)
  | word s => some (if (Word.ofText s).keyword.isSome then s.toList else (quoted s).toList)
  | symbol (.assign op) => some op.text.toList
  | symbol (.binary op) => some op.text.toList
  | _ => none

/-- Brackets around a text. -/
def bracketed : Option (List Char) → List Char
  | some text => '(' :: text ++ [')']
  | none => []

theorem ofText_cases (s : String) :
    (∃ k, Word.ofText s = ⟨.keyword, s, some k⟩ ∧ k.text = s) ∨
      ∃ kind, Word.ofText s = ⟨kind, s, none⟩ ∧ kind ≠ .keyword := by
  unfold Word.ofText
  cases found : Keyword.ofText? s with
  | some k => exact Or.inl ⟨k, rfl, Keyword.ofText?_eq_some_iff.mp found⟩
  | none =>
    refine Or.inr ⟨_, rfl, ?_⟩
    simp only [WordKind.literals, List.lookup_cons, List.lookup_nil]
    repeat' split
    all_goals simp

theorem toList_description (c : TokenContent) (span : Span) :
    (c.token span).description.toList = c.title.toList ++ bracketed c.inside := by
  have same (s : String) : toString s = s := rfl
  cases c with
  | number x =>
    simp [token, Token.description, kind, value, title, inside, bracketed, same,
      TokenValue.displayed]
  | string s source =>
    simp [token, Token.description, kind, value, raw, title, inside, bracketed, same,
      TokenValue.displayed]
  | word s =>
    rcases ofText_cases s with ⟨k, word, -⟩ | ⟨k, word, -⟩ <;>
      simp [token, Token.description, kind, value, title, inside, bracketed, same, word,
        WordKind.title]
  | symbol s =>
    cases s <;>
      simp [token, Token.description, kind, value, title, inside, bracketed, same, Symbol.kind,
        Symbol.value, TokenKind.label]
  | _ => simp [token, Token.description, kind, value, title, inside, bracketed]

/-! ## What the parts say -/

/-- The kinds of tokens by the titles of their lines. -/
def titles : List (String × TokenKind) :=
  [("Number", .number), ("String", .string), ("Keyword", .word), ("Identifier", .word),
    ("True", .word), ("False", .word), ("Null", .word),
    (TokenKind.lineComment.label, .lineComment), (TokenKind.blockComment.label, .blockComment),
    ("AssignOp", .assignOp), ("BinaryOp", .binaryOp)] ++
  Punctuator.all.map fun p => (p.label, .punctuator p)

theorem titles_lookup (c : TokenContent) : titles.lookup c.title = some c.kind := by
  cases c with
  | word s =>
    show titles.lookup (Word.ofText s).kind.title = some .word
    cases (Word.ofText s).kind <;> rfl
  | symbol s =>
    cases s with
    | punctuator p => cases p <;> rfl
    | assign op => rfl
    | binary op => rfl
  | _ => rfl

theorem title_eq_keyword_iff (kind : WordKind) : kind.title = "Keyword" ↔ kind = .keyword := by
  cases kind <;> decide

/-- Of the words only those that are no keyword are quoted, and their titles differ. -/
theorem word_inj {s t : String} (titles : (word s).title = (word t).title)
    (insides : (word s).inside = (word t).inside) : s = t := by
  have texts := Option.some.inj insides
  rcases ofText_cases s with ⟨k, word, -⟩ | ⟨kind, word, other⟩ <;>
    rcases ofText_cases t with ⟨k', word', -⟩ | ⟨kind', word', other'⟩ <;>
    simp only [word, word', title] at titles texts
  · exact String.toList_inj.mp texts
  · exact absurd ((title_eq_keyword_iff kind').mp titles.symm) other'
  · exact absurd ((title_eq_keyword_iff kind).mp titles) other
  · exact quoted_inj (String.toList_inj.mp texts)

/-- The title and what stands between the brackets say what the token is. -/
theorem eq_of_title_of_inside {c d : TokenContent} (titles : c.title = d.title)
    (insides : c.inside = d.inside) : c = d := by
  have kinds := titles_lookup c
  rw [titles, titles_lookup d] at kinds
  have kind := Option.some.inj kinds
  match c, d, kind with
  | .number x, .number y, _ =>
    have texts := String.toList_inj.mp (Option.some.inj insides)
    rw [NumberLayout.regular_standard.write_inj texts]
  | .string s s', .string t t', _ =>
    have texts := Option.some.inj insides
    rw [List.append_assoc, List.append_assoc] at texts
    obtain ⟨rfl, sources⟩ := quoted_append_inj texts
    rw [quoted_inj (String.toList_inj.mp (List.append_cancel_left sources))]
  | .word s, .word t, _ => rw [word_inj titles insides]
  | .lineComment, .lineComment, _ => rfl
  | .blockComment, .blockComment, _ => rfl
  | .symbol (.punctuator p), .symbol (.punctuator q), kind =>
    rw [TokenKind.punctuator.inj kind]
  | .symbol (.assign op), .symbol (.assign op'), _ =>
    rw [AssignOp.eq_of_text_eq (String.toList_inj.mp (Option.some.inj insides))]
  | .symbol (.binary op), .symbol (.binary op'), _ =>
    rw [BinaryOp.eq_of_text_eq (String.toList_inj.mp (Option.some.inj insides))]

/-! ## Lines -/

theorem titles_chars :
    (titles.all fun t => t.1.toList.all fun c => c != '(' && c != '\n') = true := by
  decide

theorem title_chars (c : TokenContent) : ∀ d ∈ c.title.toList, (d != '(') = true ∧ d ≠ '\n' := by
  have mem : (c.title, c.kind) ∈ titles := by
    obtain ⟨before, after, split, -⟩ := List.lookup_eq_some_iff.mp (titles_lookup c)
    rw [split]
    exact List.mem_append_right _ List.mem_cons_self
  have all := List.all_eq_true.mp (List.all_eq_true.mp titles_chars _ mem)
  intro d there
  simpa using all d there

theorem bracketed_inj {a b : Option (List Char)} (same : bracketed a = bracketed b) : a = b := by
  match a, b with
  | none, none => rfl
  | some a, some b => rw [List.append_cancel_right (List.cons.inj same).2]

theorem bracketed_head (a : Option (List Char)) :
    ∀ d ∈ (bracketed a).head?, (d != '(') = false := by
  intro d mem
  cases a <;> cases mem
  rfl

/-- A description says what the token is. -/
theorem description_inj {c d : TokenContent} {s s' : Span}
    (same : (c.token s).description.toList = (d.token s').description.toList) : c = d := by
  rw [toList_description, toList_description] at same
  obtain ⟨titles, insides⟩ := split_inj (fun e mem => (title_chars c e mem).1) (bracketed_head _)
    (fun e mem => (title_chars d e mem).1) (bracketed_head _) same
  exact eq_of_title_of_inside (String.toList_inj.mp titles) (bracketed_inj insides)

end TokenContent

/-- The text of a span. -/
def Span.shown (s : Span) : List Char :=
  (toString s.start).toList ++ '.' :: '.' :: (toString s.stop).toList

theorem Span.shown_chars (s : Span) : ∀ c ∈ s.shown, Json.isWholeChar c = true ∨ c = '.' := by
  intro c mem
  rcases List.mem_append.mp mem with mem | mem
  · exact Or.inl ((Json.whole_chars s.start).2 c mem)
  rcases List.mem_cons.mp mem with point | mem
  · exact Or.inr point
  rcases List.mem_cons.mp mem with point | mem
  · exact Or.inr point
  · exact Or.inl ((Json.whole_chars s.stop).2 c mem)

theorem Span.shown_inj {s s' : Span} (same : s.shown = s'.shown) : s = s' := by
  have free (n : Int) : '.' ∉ (toString n).toList := fun mem =>
    absurd ((Json.whole_chars n).2 _ mem) (by decide)
  obtain ⟨starts, rest⟩ := split_first_inj (free _) (free _) same
  have stops := (List.cons.inj rest).2
  cases s
  cases s'
  cases Json.whole_inj starts
  cases Json.whole_inj stops
  rfl

theorem Token.toList_line (t : Token) :
    t.line.toList = (t.description.toList ++ [' ', '@']) ++ ' ' :: t.span.shown := by
  have same (s : String) : toString s = s := rfl
  simp [Token.line, Span.shown, same]

namespace TokenContent

/-- The line of a token says what the token is and where it stands. -/
theorem line_inj {c d : TokenContent} {s s' : Span}
    (same : (c.token s).line.toList = (d.token s').line.toList) : c.token s = d.token s' := by
  have free (s : Span) : ' ' ∉ s.shown := fun mem => absurd (s.shown_chars _ mem) (by decide)
  rw [Token.toList_line, Token.toList_line] at same
  obtain ⟨fronts, spans⟩ := split_last_inj (free _) (free _) same
  have span : s = s' := Span.shown_inj spans
  rw [description_inj (List.append_cancel_right fronts), span]

theorem newline_not_mem_inside (c : TokenContent) : '\n' ∉ bracketed c.inside := by
  have between {text : List Char} (inLine : '\n' ∉ text) : '\n' ∉ bracketed (some text) := by
    simpa [bracketed] using inLine
  have operator (s : Symbol) : '\n' ∉ s.text.toList := fun mem =>
    absurd (Symbol.not_isBlank_of_mem_text mem) (by decide)
  cases c with
  | number x =>
    refine between fun mem => ?_
    have chars := NumberLayout.regular_standard.write_chars x _ mem
    exact absurd chars (by decide)
  | string s source =>
    refine between ?_
    simp only [List.mem_append, not_or]
    exact ⟨⟨newline_not_mem_quoted s, by decide⟩, newline_not_mem_quoted source⟩
  | word s =>
    refine between ?_
    rcases ofText_cases s with ⟨k, word, rfl⟩ | ⟨kind, word, -⟩ <;> simp only [word]
    · cases k <;> decide
    · exact newline_not_mem_quoted s
  | symbol s =>
    cases s with
    | punctuator _ => exact List.not_mem_nil
    | assign op => exact between (operator (.assign op))
    | binary op => exact between (operator (.binary op))
  | _ => exact List.not_mem_nil

/-- No line is broken. -/
theorem newline_not_mem_line (c : TokenContent) (s : Span) : '\n' ∉ (c.token s).line.toList := by
  have span : '\n' ∉ s.shown := fun mem => absurd (s.shown_chars _ mem) (by decide)
  have title : '\n' ∉ c.title.toList := fun mem => (title_chars c _ mem).2 rfl
  rw [Token.toList_line, toList_description]
  simp only [List.mem_append, List.mem_cons, List.not_mem_nil, not_or, or_false]
  exact ⟨⟨⟨title, newline_not_mem_inside c⟩, by decide, by decide⟩, by decide, span⟩

end TokenContent

/-! ## Dumps -/

/-- The tokens that a scan can have. -/
def HaveContents (tokens : List Token) : Prop :=
  ∀ t ∈ tokens, ∃ c : TokenContent, t = c.token t.span

theorem toList_dumpText_cons (t : Token) (tokens : List Token) :
    (dumpText (t :: tokens)).toList = t.line.toList ++ '\n' :: (dumpText tokens).toList := by
  simp [dumpText, String.join_cons]

theorem newline_not_mem_of_content {t : Token} (content : ∃ c : TokenContent, t = c.token t.span) :
    '\n' ∉ t.line.toList := by
  obtain ⟨c, token⟩ := content
  rw [token]
  exact c.newline_not_mem_line t.span

/-- The lines can be told from the dump. -/
theorem dumpText_inj {a b : List Token} (contents : HaveContents a) (contents' : HaveContents b)
    (same : (dumpText a).toList = (dumpText b).toList) : a = b := by
  induction a generalizing b with
  | nil =>
    cases b with
    | nil => rfl
    | cons u b =>
      rw [toList_dumpText_cons] at same
      exact absurd same.symm (List.append_ne_nil_of_right_ne_nil _ (List.cons_ne_nil _ _))
  | cons t a ih =>
    rw [toList_dumpText_cons] at same
    cases b with
    | nil => exact absurd same (List.append_ne_nil_of_right_ne_nil _ (List.cons_ne_nil _ _))
    | cons u b =>
      obtain ⟨content, others⟩ := List.forall_mem_cons.mp contents
      obtain ⟨content', others'⟩ := List.forall_mem_cons.mp contents'
      rw [toList_dumpText_cons] at same
      obtain ⟨lines, rest⟩ := split_first_inj (newline_not_mem_of_content content)
        (newline_not_mem_of_content content') same
      obtain ⟨c, token⟩ := content
      obtain ⟨d, token'⟩ := content'
      rw [token, token'] at lines
      rw [ih others others' rest, token, token', TokenContent.line_inj lines]

/-- There is one line for each token. -/
theorem count_newline_dumpText {tokens : List Token} (contents : HaveContents tokens) :
    (dumpText tokens).toList.count '\n' = tokens.length := by
  induction tokens with
  | nil => rfl
  | cons t tokens ih =>
    obtain ⟨content, others⟩ := List.forall_mem_cons.mp contents
    rw [toList_dumpText_cons, List.count_append, List.count_cons_self, ih others,
      List.count_eq_zero.mpr (newline_not_mem_of_content content), List.length_cons, Nat.zero_add]

end ScriptLexer
