import ScriptLexer.Proofs.Scan.Walk

/-
  What the tokens of a scan carry. A word is a keyword, a literal or an identifier by its text
  alone (`Word.Classified`). Kind, value and source text of a token go together in one of a few
  ways (`TokenContent`), and every token of a scan is made in one of these
  (`Scan.startingAt_tokens`).
-/

namespace ScriptLexer

theorem AssignOp.eq_of_text_eq {op op' : AssignOp} (same : op.text = op'.text) : op = op' :=
  Symbol.assign.inj (Symbol.eq_of_text_eq same)

theorem BinaryOp.eq_of_text_eq {op op' : BinaryOp} (same : op.text = op'.text) : op = op' :=
  Symbol.binary.inj (Symbol.eq_of_text_eq same)

/-! ## Words -/

theorem Keyword.ofText?_eq_some_iff {text : String} {k : Keyword} :
    Keyword.ofText? text = some k ↔ k.text = text := by
  constructor
  · intro found
    unfold ofText? at found
    have named := List.find?_some found
    exact eq_of_beq named
  · rintro rfl
    cases k <;> rfl

theorem Keyword.text_inj {k k' : Keyword} : k.text = k'.text ↔ k = k' := by
  rw [← ofText?_eq_some_iff, ofText?_eq_some_iff.mpr rfl, Option.some.injEq, eq_comm]

theorem Keyword.mem_all (k : Keyword) : k ∈ Keyword.all := by cases k <;> decide

theorem Keyword.text_ne_literal (k : Keyword) : k.text ∉ ["true", "false", "null"] := by
  cases k <;> decide

theorem WordKind.lookup_literals (text : String) :
    (literals.lookup text).getD .identifier =
      if text = "true" then .trueLiteral else if text = "false" then .falseLiteral
      else if text = "null" then .nullLiteral else .identifier := by
  simp only [literals, List.lookup_cons, List.lookup_nil, ← beq_iff_eq (a := text)]
  cases text == "true" <;> cases text == "false" <;> cases text == "null" <;> rfl

theorem Word.text_ofText (s : String) : (Word.ofText s).text = s := by
  unfold Word.ofText
  split <;> rfl

/-- What a word is, by its text. -/
structure Word.Classified (w : Word) : Prop where
  keyword : ∀ k, w.keyword = some k ↔ k.text = w.text
  isKeyword : w.kind = .keyword ↔ w.text ∈ Keyword.all.map Keyword.text
  noKeyword : w.kind ≠ .keyword → w.keyword = none
  isTrue : w.kind = .trueLiteral ↔ w.text = "true"
  isFalse : w.kind = .falseLiteral ↔ w.text = "false"
  isNull : w.kind = .nullLiteral ↔ w.text = "null"
  isIdentifier : w.kind = .identifier ↔
    w.text ∉ Keyword.all.map Keyword.text ∧ w.text ∉ ["true", "false", "null"]

theorem Word.ofText_classified (text : String) : (Word.ofText text).Classified := by
  unfold Word.ofText
  cases found : Keyword.ofText? text with
  | some k =>
    obtain rfl := Keyword.ofText?_eq_some_iff.mp found
    have listed := List.mem_map_of_mem (f := Keyword.text) k.mem_all
    have other (literal : String) (mem : literal ∈ ["true", "false", "null"]) :
        k.text ≠ literal := by
      rintro rfl
      exact k.text_ne_literal mem
    constructor
    case keyword =>
      intro k'
      rw [Option.some.injEq, Keyword.text_inj, eq_comm]
    case isKeyword => exact iff_of_true rfl listed
    case noKeyword => exact fun other => absurd rfl other
    case isIdentifier => exact iff_of_false nofun fun unlisted => unlisted.1 listed
    all_goals exact iff_of_false nofun (other _ (by decide))
  | none =>
    have unlike (k : Keyword) : k.text ≠ text := by
      intro same
      rw [Keyword.ofText?_eq_some_iff.mpr same] at found
      contradiction
    have unlisted : text ∉ Keyword.all.map Keyword.text := by
      intro mem
      obtain ⟨k, -, same⟩ := List.mem_map.mp mem
      exact unlike k same
    dsimp only
    rw [WordKind.lookup_literals]
    constructor
    case keyword => exact fun k => iff_of_false nofun (unlike k)
    case noKeyword => exact fun _ => rfl
    case isKeyword =>
      refine iff_of_false ?_ unlisted
      dsimp only
      split_ifs <;> exact not_false
    all_goals
      dsimp only
      split_ifs <;> simp_all

/-! ## What a token stands for -/

/-- What a token stands for, in full. -/
inductive TokenContent
  | number (value : Binary64)
  | string (value source : String)
  | word (text : String)
  | lineComment
  | blockComment
  | symbol (symbol : Symbol)
deriving DecidableEq

namespace TokenContent

def kind : TokenContent → TokenKind
  | number _ => .number
  | string _ _ => .string
  | word _ => .word
  | lineComment => .lineComment
  | blockComment => .blockComment
  | symbol s => s.kind

def value : TokenContent → TokenValue
  | number x => .number x
  | string s _ => .text s
  | word s => .word (Word.ofText s)
  | lineComment | blockComment => .none
  | symbol s => s.value

def raw : TokenContent → Option String
  | string _ source => some source
  | _ => none

/-- The token with this content. -/
def token (c : TokenContent) (span : Span) : Token := ⟨c.kind, span, c.value, c.raw⟩

end TokenContent

theorem Construct.Reads.exists_content {head : Char} {rest : List Char} {k : Construct}
    (h : Reads head rest k) :
    ∃ c : TokenContent, k.kind = c.kind ∧ k.value = c.value ∧ k.raw = c.raw := by
  cases h with
  | string => exact ⟨.string _ _, rfl, rfl, rfl⟩
  | word => exact ⟨.word _, rfl, rfl, rfl⟩
  | lineComment => exact ⟨.lineComment, rfl, rfl, rfl⟩
  | blockComment => exact ⟨.blockComment, rfl, rfl, rfl⟩
  | symbol => exact ⟨.symbol _, rfl, rfl, rfl⟩
  | _ => exact ⟨.number _, rfl, rfl, rfl⟩

/-- Every token of a scan has a content. -/
theorem Scan.startingAt_tokens (offset : Nat) (text : List Char) :
    ∀ t ∈ (Scan.startingAt offset text).tokens, ∃ c : TokenContent, t = c.token t.span := by
  refine Scan.walk (P := fun _ _ s => ∀ t ∈ s.tokens, ∃ c : TokenContent, t = c.token t.span)
    ?nil ?blank ?stop ?construct offset text
  case nil => exact fun _ _ mem => absurd mem List.not_mem_nil
  case blank => exact fun _ _ _ _ _ ih => ih
  case stop => exact fun _ _ _ _ _ _ mem => absurd mem List.not_mem_nil
  case construct =>
    intro offset c rest k s reads ih t mem
    rcases List.mem_cons.mp mem with rfl | mem
    · obtain ⟨content, kind, value, raw⟩ := reads.exists_content
      refine ⟨content, ?_⟩
      rw [TokenContent.token, ← kind, ← value, ← raw]
      rfl
    · exact ih t mem

end ScriptLexer
