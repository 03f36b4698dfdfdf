import Mathlib.Order.Bounds.Basic
import ScriptLexer.Proofs.Scan.Faithful
import ScriptLexer.Proofs.Scan.Placed

/-
  Comments. A line comment ends with the first line terminator, a block comment with the first
  star that has a slash behind it, or either goes on to the end of the source
  (`lineCommentLength_endsAt`, `blockComment_endsAt`). Only an open block comment is reported, and
  nothing else on the characters of a comment is (`Scan.ofText_comment`).
-/

namespace ScriptLexer

/-! ## Where a comment ends -/

/-- At the place `n` of the body of a comment stands a line terminator. -/
def EndsLine (body : List Char) (n : Nat) : Prop := body[n]?.any isLineTerminator = true

instance (body : List Char) (n : Nat) : Decidable (EndsLine body n) :=
  inferInstanceAs (Decidable (_ = _))

/-- At the place `n` of the body of a comment stands a star, and a slash behind it. -/
def ClosesComment (body : List Char) (n : Nat) : Prop :=
  body[n]? = some '*' ∧ body[n + 1]? = some '/'

instance (body : List Char) (n : Nat) : Decidable (ClosesComment body n) :=
  inferInstanceAs (Decidable (_ ∧ _))

/-- A length that goes `width` characters on from the first place with a property, or is that of
the whole text if there is no such place. -/
inductive EndsAt (ends : Nat → Prop) (width whole length : Nat) : Prop
  | first {n : Nat} (least : IsLeast {n | ends n} n) (length : length = n + width)
  | never (none : ∀ n, ¬ends n) (length : length = whole)

/-- A character that is put in front and is not at an end moves all places. -/
theorem EndsAt.cons {ends ends' : Nat → Prop} {width whole length : Nat}
    (h : EndsAt ends width whole length) (later : ¬ends' 0) (shift : ∀ n, ends' (n + 1) ↔ ends n) :
    EndsAt ends' width (whole + 1) (1 + length) := by
  cases h with
  | @first n least length =>
    refine .first (n := n + 1) ⟨(shift n).mpr least.1, fun m there => ?_⟩ (by omega)
    cases m with
    | zero => exact absurd there later
    | succ m => exact Nat.succ_le_succ (least.2 ((shift m).mp there))
  | never none length =>
    refine .never (fun m there => ?_) (by omega)
    cases m with
    | zero => exact later there
    | succ m => exact none m ((shift m).mp there)

theorem lineCommentLength_endsAt (body : List Char) :
    EndsAt (EndsLine body) 1 body.length (lineCommentLength body) := by
  induction body with
  | nil => exact .never (fun _ => Bool.false_ne_true) rfl
  | cons c body ih =>
    unfold lineCommentLength
    split
    · next terminator => exact .first ⟨terminator, fun _ _ => Nat.zero_le _⟩ rfl
    · next plain => exact ih.cons plain fun _ => Iff.rfl

theorem not_closesComment_nil (n : Nat) : ¬ClosesComment [] n := by simp [ClosesComment]

theorem closesComment_cons_zero {c : Char} {rest : List Char} :
    ClosesComment (c :: rest) 0 ↔ ∃ behind, c = '*' ∧ rest = '/' :: behind := by
  cases rest with
  | nil => simp [ClosesComment]
  | cons d rest => simp [ClosesComment]

theorem blockComment_endsAt (body : List Char) :
    EndsAt (ClosesComment body) 2 body.length (blockComment body).1 := by
  fun_induction blockComment body with
  | case1 => exact .never not_closesComment_nil rfl
  | case2 => exact .first ⟨⟨rfl, rfl⟩, fun _ _ => Nat.zero_le _⟩ rfl
  | case3 c rest notClosing _ ih =>
    refine ih.cons (fun closes => ?_) fun _ => Iff.rfl
    obtain ⟨behind, star, slash⟩ := closesComment_cons_zero.mp closes
    exact notClosing behind star slash

theorem blockComment_closed_iff (body : List Char) :
    (blockComment body).2 = true ↔ ∃ n, ClosesComment body n := by
  fun_induction blockComment body with
  | case1 => exact iff_of_false Bool.false_ne_true (not_exists.mpr not_closesComment_nil)
  | case2 => exact iff_of_true rfl ⟨0, rfl, rfl⟩
  | case3 c rest notClosing _ ih =>
    refine ih.trans ⟨?_, ?_⟩
    · rintro ⟨n, closes⟩
      exact ⟨n + 1, closes⟩
    · rintro ⟨n, closes⟩
      cases n with
      | zero =>
        obtain ⟨behind, star, slash⟩ := closesComment_cons_zero.mp closes
        exact (notClosing behind star slash).elim
      | succ n => exact ⟨n, closes⟩

/-! ## Comments of a source text -/

/-- Only at a slash and a star a block comment is read. -/
theorem Construct.Reads.blockComment_of_kind {head : Char} {rest : List Char} {k : Construct}
    (reads : Construct.Reads head rest k) (comment : k.kind = .blockComment) :
    ∃ body, head = '/' ∧ rest = '*' :: body ∧ k = readBlockComment body := by
  cases reads with
  | blockComment => exact ⟨_, rfl, rfl, rfl⟩
  | @symbol _ _ s _ _ => cases s <;> exact TokenKind.noConfusion comment
  | _ => exact TokenKind.noConfusion comment

theorem readBlockComment_diagnostics (body : List Char) (start : Nat) :
    (readBlockComment body).diagnostics start = if (blockComment body).2 then [] else
      [⟨.unterminatedComment, "*", ((readBlockComment body).token start).span⟩] := by
  unfold Construct.diagnostics readBlockComment
  dsimp only
  split <;> rfl

namespace Scan

/-- On the characters of the token that begins at `start` are these diagnostics, and perhaps in
front of them that of a zero which has left the slash to the comment. -/
def ReportsOnly (s : Scan) (t : Token) (start : Nat) (own : List Diagnostic) : Prop :=
  ∃ shared, s.diagnosticsIn start t.span.size.toNat = shared ++ own ∧
    ∀ d ∈ shared, ∃ place, start = place + 1 ∧ s.LeftByZero place '/' d

/-- How a scan reads a comment: up to the first place of its body where it ends, `width`
characters on, or else up to the end of the source with a report. No other token has any of its
characters. -/
structure ReadsComment (s : Scan) (source : String) (t : Token) (start : Nat) (kind : TokenKind)
    (ends : Nat → Prop) (width : Nat) (report : List Diagnostic) : Prop where
  token : t = ⟨kind, t.span, .none, none⟩
  ended : ∀ n, IsLeast {n | ends n} n →
    t.span.stop = ((start + (2 + (n + width)) : Nat) : Int) ∧ s.ReportsOnly t start []
  opened : (∀ n, ¬ends n) → t.span.stop = source.length ∧ s.ReportsOnly t start report
  apart : ∀ u ∈ s.tokens, u = t ∨ u.span.stop ≤ t.span.start ∨ t.span.stop ≤ u.span.start

section Reads

variable {source : String} {start : Nat} {second : Char} {body : List Char} {k : Construct}
  {kind : TokenKind} {ends : Nat → Prop} {width length : Nat} {report : List Diagnostic}

theorem StandsAt.reportsOnly (h : (ofText source).StandsAt start '/' (second :: body) k)
    (contained : k.Contained) (whole : k.size = k.taken) :
    (ofText source).ReportsOnly (k.token start) start (k.diagnostics start) := by
  have size : (k.token start).span.size.toNat = k.taken := by
    rw [Construct.token, Span.size_cover, Int.toNat_natCast, whole]
  obtain ⟨shared, own, others⟩ := h.diagnosticsIn contained
  rw [← size] at own
  exact ⟨shared, own, fun d mem => (others d mem).1⟩

theorem StandsAt.readsComment (h : (ofText source).StandsAt start '/' (second :: body) k)
    (ahead : source.toList.drop start = '/' :: second :: body)
    (mem : k.token start ∈ (ofText source).tokens) (contained : k.Contained)
    (whole : k.size = k.taken) (token : k.token start = ⟨kind, (k.token start).span, .none, none⟩)
    (size : k.size = 2 + length) (endsAt : EndsAt ends width body.length length)
    (clean : (∃ n, ends n) → k.diagnostics start = [])
    (own : (∀ n, ¬ends n) → k.diagnostics start = report) :
    (ofText source).ReadsComment source (k.token start) start kind ends width report := by
  have reports := h.reportsOnly contained whole
  constructor
  case token => exact token
  case ended =>
    intro n least
    rw [clean ⟨n, least.1⟩] at reports
    refine ⟨?_, reports⟩
    cases endsAt with
    | never none _ => exact absurd least.1 (none n)
    | first least' length =>
      obtain rfl := least.unique least'
      show ((start + k.size : Nat) : Int) = _
      rw [size, length]
  case opened =>
    intro never
    rw [own never] at reports
    refine ⟨?_, reports⟩
    cases endsAt with
    | first least _ => exact absurd least.1 (never _)
    | never _ length =>
      have room := congrArg List.length ahead
      rw [List.length_drop, String.length_toList, List.length_cons, List.length_cons] at room
      show ((start + k.size : Nat) : Int) = _
      omega
  case apart => exact (startingAt_within 0 source.toList).apart mem

end Reads

/-- A token that begins with `//` is a line comment up to and with the first line terminator or up
to the end of the source, and nothing is recorded for it. One that begins with `/*` is a block
comment up to and with the first `*/` behind that or up to the end of the source; then it is
reported as a whole, and there is no such report in any other case. -/
theorem ofText_comment (source : String) :
    (∀ t ∈ (ofText source).tokens, ∃ start : Nat, t.span.start = start ∧
      (∀ body, source.toList.drop start = '/' :: '/' :: body →
        (ofText source).ReadsComment source t start .lineComment (EndsLine body) 1 []) ∧
      ∀ body, source.toList.drop start = '/' :: '*' :: body →
        (ofText source).ReadsComment source t start .blockComment (ClosesComment body) 2
          [⟨.unterminatedComment, "*", t.span⟩]) ∧
    ∀ d ∈ (ofText source).diagnostics, d.kind = .unterminatedComment →
      ∃ t ∈ (ofText source).tokens, ∃ (start : Nat) (body : List Char), t.span.start = start ∧
        source.toList.drop start = '/' :: '*' :: body ∧ (∀ n, ¬ClosesComment body n) ∧
        d = ⟨.unterminatedComment, "*", t.span⟩ := by
  constructor
  · intro t mem
    obtain ⟨start, head, rest, k, ahead, rfl, stands⟩ := ofText_standsAt mem
    refine ⟨start, rfl, fun body line => ?_, fun body block => ?_⟩
    · obtain ⟨rfl, rfl⟩ := List.cons.inj (ahead.symm.trans line)
      obtain rfl := stands.reads.unique .lineComment
      exact stands.readsComment ahead mem (Construct.contained_of_start (List.forall_mem_nil _))
        rfl rfl rfl (lineCommentLength_endsAt body) (fun _ => rfl) fun _ => rfl
    · obtain ⟨rfl, rfl⟩ := List.cons.inj (ahead.symm.trans block)
      obtain rfl := stands.reads.unique .blockComment
      have own := readBlockComment_diagnostics body start
      refine stands.readsComment ahead mem (Construct.readBlockComment_contained body) rfl rfl rfl
        (blockComment_endsAt body) (fun some => ?_) fun never => ?_
      · rw [own, if_pos ((blockComment_closed_iff body).mpr some)]
      · rw [own, if_neg fun closed => ?_]
        obtain ⟨n, closes⟩ := (blockComment_closed_iff body).mp closed
        exact never n closes
  · intro d mem kind
    obtain ⟨t, final, span, -, comment⟩ :=
      pointsIn_of_isUnterminated ((startingAt_faithful 0 source.toList).points d mem) (kind ▸ rfl)
    have mem' := List.mem_of_getLast? final
    obtain ⟨start, head, rest, k, ahead, rfl, stands⟩ := ofText_standsAt mem'
    obtain ⟨body, rfl, rfl, rfl⟩ := stands.reads.blockComment_of_kind (comment kind)
    have own := stands.own_of_span (Construct.readBlockComment_contained body) mem span
      (kind ▸ nofun)
    rw [readBlockComment_diagnostics] at own
    refine ⟨_, mem', start, body, rfl, ahead, ?_⟩
    split at own
    · contradiction
    · next opened =>
      refine ⟨fun n closes => opened ((blockComment_closed_iff body).mpr ⟨n, closes⟩), ?_⟩
      exact List.mem_singleton.mp own

/-- A line comment that a zero has left its slash to, a block comment with the star of its opening
in front of a slash, and an open one. -/
theorem ofText_comment_overlapping :
    (ofText "0//\r\n/*/**/ /**").ReadsComment "0//\r\n/*/**/ /**"
      ⟨.lineComment, Span.cover 1 3, .none, none⟩ 1 .lineComment
      (EndsLine "\r\n/*/**/ /**".toList) 1 [] ∧
    (ofText "0//\r\n/*/**/ /**").ReadsComment "0//\r\n/*/**/ /**"
      ⟨.blockComment, Span.cover 5 6, .none, none⟩ 5 .blockComment
      (ClosesComment "/**/ /**".toList) 2 [⟨.unterminatedComment, "*", Span.cover 5 6⟩] ∧
    ∃ t ∈ (ofText "0//\r\n/*/**/ /**").tokens, ∃ (start : Nat) (body : List Char),
      t.span.start = start ∧ "0//\r\n/*/**/ /**".toList.drop start = '/' :: '*' :: body ∧
      (∀ n, ¬ClosesComment body n) ∧
      (⟨.unterminatedComment, "*", Span.cover 12 3⟩ : Diagnostic) =
        ⟨.unterminatedComment, "*", t.span⟩ := by
  obtain ⟨first, begins, line, -⟩ := (ofText_comment "0//\r\n/*/**/ /**").1
    ⟨.lineComment, Span.cover 1 3, .none, none⟩ (by decide +kernel)
  obtain ⟨second, begins', -, block⟩ := (ofText_comment "0//\r\n/*/**/ /**").1
    ⟨.blockComment, Span.cover 5 6, .none, none⟩ (by decide +kernel)
  obtain rfl : 1 = first := Int.ofNat.inj begins
  obtain rfl : 5 = second := Int.ofNat.inj begins'
  exact ⟨line _ (by decide +kernel), block _ (by decide +kernel),
    (ofText_comment "0//\r\n/*/**/ /**").2 ⟨.unterminatedComment, "*", Span.cover 12 3⟩
      (by decide +kernel) rfl⟩

end Scan

end ScriptLexer
