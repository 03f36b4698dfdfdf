import ScriptLexer.Proofs.Scan.Seam

/-
  The grammar of string literals and comments beside their readers. A string is closed exactly
  when some text of the grammar and its quote stand behind the opening quote
  (`exists_stringText`, `stringBody_eq`); a block comment exactly when a star and a slash do
  (`exists_unclosed`, `blockComment_eq`); a line comment ends with the first line terminator or
  with the source (`endsOrNot`).
-/

namespace ScriptLexer

/-! ## Strings -/

/-- The source text between two quotes, and what it stands for. -/
inductive StringText (quote : Char) : List Char → List Char → Prop
  | nil : StringText quote [] []
  | plain {c : Char} {body value : List Char} (other : c ≠ quote) (unescaped : c ≠ '\\')
    (behind : StringText quote body value) : StringText quote (c :: body) (c :: value)
  | escaped {c : Char} {body value : List Char} (behind : StringText quote body value) :
    StringText quote ('\\' :: c :: body) (unescape c :: value)

theorem stringBody_eq {quote : Char} (unescaped : quote ≠ '\\') {body value : List Char}
    (text : StringText quote body value) (follow : List Char) :
    stringBody quote (body ++ quote :: follow) = ⟨value, body.length + 1, true⟩ := by
  induction text with
  | nil => rw [List.nil_append, stringBody_cons unescaped, if_pos rfl, List.length_nil]
  | plain other unescaped _ ih =>
    rw [List.cons_append, stringBody_cons unescaped, if_neg other, ih, StringBody.cons,
      List.length_cons, Nat.add_comm 1]
  | escaped _ ih =>
    rw [List.cons_append, List.cons_append, stringBody, ih, StringBody.cons, List.length_cons,
      List.length_cons, Nat.add_comm 2]

/-- Up to its first quote that is not escaped, the text of a closed string is one of the
grammar. -/
theorem exists_stringText {quote : Char} {rest : List Char}
    (closed : (stringBody quote rest).closed = true) :
    ∃ body value follow, rest = body ++ quote :: follow ∧ StringText quote body value := by
  fun_induction stringBody quote rest with
  | case1 => contradiction
  | case2 => contradiction
  | case3 c rest ih =>
    obtain ⟨body, value, follow, rfl, text⟩ := ih closed
    exact ⟨'\\' :: c :: body, unescape c :: value, follow, rfl, .escaped text⟩
  | case4 rest last pair => exact ⟨[], [], rest, rfl, .nil⟩
  | case5 c rest last pair other ih =>
    obtain ⟨body, value, follow, rfl, text⟩ := ih closed
    exact ⟨c :: body, c :: value, follow, rfl, .plain other (ne_backslash last pair) text⟩

/-! ## Line comments -/

theorem lineCommentLength_ends {body : List Char} {terminator : Char}
    (inner : ∀ c ∈ body, isLineTerminator c = false)
    (ends : isLineTerminator terminator = true) (follow : List Char) :
    lineCommentLength (body ++ terminator :: follow) = body.length + 1 := by
  induction body with
  | nil =>
    rw [List.nil_append, lineCommentLength, if_pos ends]
    rfl
  | cons c body ih =>
    rw [List.forall_mem_cons] at inner
    rw [List.cons_append, lineCommentLength, if_neg (Bool.not_eq_true _ ▸ inner.1), ih inner.2,
      List.length_cons, Nat.add_comm 1]

/-- A text has no line terminator or a first one. -/
theorem endsOrNot (text : List Char) : (∀ c ∈ text, isLineTerminator c = false) ∨
    ∃ body terminator follow, text = body ++ terminator :: follow ∧
      (∀ c ∈ body, isLineTerminator c = false) ∧ isLineTerminator terminator = true := by
  induction text with
  | nil => exact Or.inl nofun
  | cons c text ih =>
    by_cases ends : isLineTerminator c = true
    · exact Or.inr ⟨[], c, text, rfl, nofun, ends⟩
    · rw [Bool.not_eq_true] at ends
      rcases ih with none | ⟨body, terminator, follow, rfl, inner, last⟩
      · exact Or.inl (List.forall_mem_cons.mpr ⟨ends, none⟩)
      · exact Or.inr ⟨c :: body, terminator, follow, rfl,
          List.forall_mem_cons.mpr ⟨ends, inner⟩, last⟩

/-! ## Block comments -/

/-- No star of the text has a slash behind it, also if a star and a slash follow the text. -/
def Unclosed (text : List Char) : Prop := ¬['*', '/'] <:+: text ++ ['*']

theorem unclosed_nil : Unclosed [] := by
  unfold Unclosed
  decide

theorem unclosed_cons {c : Char} {text : List Char} :
    Unclosed (c :: text) ↔ ¬(c = '*' ∧ text.head? = some '/') ∧ Unclosed text := by
  unfold Unclosed
  rw [List.cons_append, List.infix_cons_iff, not_or]
  refine and_congr_left fun _ => not_congr ?_
  rw [List.cons_prefix_cons, eq_comm]
  refine and_congr_right fun _ => ?_
  cases text with
  | nil => decide
  | cons d text =>
    rw [List.cons_append, List.cons_prefix_cons, List.head?_cons, Option.some.injEq,
      and_iff_left List.nil_prefix, eq_comm]

theorem blockComment_eq {body : List Char} (inner : Unclosed body) (follow : List Char) :
    blockComment (body ++ '*' :: '/' :: follow) = (body.length + 2, true) := by
  induction body with
  | nil => rfl
  | cons c body ih =>
    obtain ⟨open_, inner⟩ := unclosed_cons.mp inner
    rw [List.cons_append, blockComment, ih inner, List.length_cons]
    · rw [Nat.add_right_comm, Nat.add_comm 1]
    · -- the slash of the end has its own star in front
      intro behind star slash
      refine open_ ⟨star, ?_⟩
      cases body with
      | nil => exact absurd (List.cons.inj slash).1 (by decide)
      | cons d body => rw [List.head?_cons, (List.cons.inj slash).1]

theorem exists_unclosed {rest : List Char} (closed : (blockComment rest).2 = true) :
    ∃ body follow, rest = body ++ '*' :: '/' :: follow ∧ Unclosed body := by
  fun_induction blockComment rest with
  | case1 => contradiction
  | case2 follow => exact ⟨[], follow, rfl, unclosed_nil⟩
  | case3 c rest notClosing tail ih =>
    obtain ⟨body, follow, rfl, inner⟩ := ih closed
    refine ⟨c :: body, follow, rfl, unclosed_cons.mpr ⟨?_, inner⟩⟩
    rintro ⟨star, slash⟩
    cases body with
    | nil => contradiction
    | cons d body =>
      rw [List.head?_cons, Option.some.injEq] at slash
      exact notClosing _ star (by rw [slash]; rfl)

end ScriptLexer
