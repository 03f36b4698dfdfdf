import Mathlib.Data.List.Nodup
import ScriptLexer.Scan
import ScriptLexer.Proofs.Scan.Run

/-
  The longest symbol at the front of a text. `Symbol.atFront?` picks a symbol exactly when its text
  fits there and no longer text of the table does (`atFront?_eq_some_iff`). No symbol holds a
  blank, so what stands behind a boundary changes nothing (`isLongest_append_iff`).
-/

namespace ScriptLexer.Symbol

/-- The kinds of symbols are their own. -/
theorem kind_ne (s : Symbol) :
    s.kind ≠ .number ∧ s.kind ≠ .string ∧ s.kind ≠ .word ∧ s.kind ≠ .endOfInput := by
  cases s <;> exact ⟨nofun, nofun, nofun, nofun⟩

/-- The text of `s` stands at the front of `text`, and that of no longer symbol does. -/
structure IsLongest (s : Symbol) (text : List Char) : Prop where
  fits : s.text.toList <+: text
  longest : ∀ s' : Symbol, s'.text.toList <+: text → s'.text.length ≤ s.text.length

/-! ## The table -/

theorem mem_table (s : Symbol) : s ∈ table := by
  cases s with
  | punctuator symbol => cases symbol <;> decide
  | assign op => cases op <;> decide
  | binary op => cases op <;> decide

theorem toList_text_ne_nil (s : Symbol) : s.text.toList ≠ [] := by
  have pos := s.text_length_pos
  rw [← String.length_toList] at pos
  exact List.ne_nil_of_length_pos pos

theorem table_texts_nodup : (table.map (·.text)).Nodup := by decide

theorem eq_of_text_eq {s s' : Symbol} (h : s.text = s'.text) : s = s' :=
  List.inj_on_of_nodup_map table_texts_nodup (mem_table s) (mem_table s') h

/-- What no symbol holds: a blank, a digit, a quote or a character of an identifier. -/
def isForeign (c : Char) : Bool :=
  isBlank c || c.isDigit || isIdentStart c || c == '"' || c == '\''

theorem table_not_isForeign :
    (table.all fun s => s.text.toList.all fun c => !isForeign c) = true := by decide

theorem table_chars (s : Symbol) {c : Char} (h : c ∈ s.text.toList) :
    isBlank c = false ∧ c.isDigit = false ∧ isIdentStart c = false ∧ ¬(c = '"' ∨ c = '\'') := by
  have all := List.all_eq_true.mp table_not_isForeign s (mem_table s)
  have foreign := List.all_eq_true.mp all c h
  simpa [isForeign, and_assoc] using foreign

theorem not_isBlank_of_mem_text {s : Symbol} {c : Char} (h : c ∈ s.text.toList) :
    isBlank c = false :=
  (table_chars s h).1

theorem head_chars {s : Symbol} {c : Char} {rest : List Char} (h : s.text.toList <+: c :: rest) :
    isBlank c = false ∧ c.isDigit = false ∧ isIdentStart c = false ∧ ¬(c = '"' ∨ c = '\'') := by
  have head : s.text.toList.head s.toList_text_ne_nil = c := h.head s.toList_text_ne_nil
  exact table_chars s (head ▸ List.head_mem s.toList_text_ne_nil)

/-- The symbols that begin with a character. -/
def ledBy (c : Char) : List Symbol := table.filter fun s => s.text.toList.head? == some c

theorem mem_ledBy {s : Symbol} {c : Char} {rest : List Char}
    (h : s.text.toList <+: c :: rest) : s ∈ ledBy c := by
  rw [ledBy, List.mem_filter]
  refine ⟨mem_table s, ?_⟩
  have head := h.head s.toList_text_ne_nil
  rw [List.head?_eq_some_head s.toList_text_ne_nil, head]
  exact beq_self_eq_true _

/-! ## By the leading character -/

/-- It is enough to compare the symbols with the same leading character, given by what follows
it in each. -/
theorem isLongest_of_tails {s : Symbol} {c : Char} {rest : List Char}
    (tails : List (List Char)) (tail : List Char)
    (led : (ledBy c).map (fun s => s.text.toList) = tails.map (c :: ·))
    (own : s.text.toList = c :: tail) (fits : tail <+: rest)
    (longest : ∀ l ∈ tails, l <+: rest → l.length ≤ tail.length) : s.IsLongest (c :: rest) := by
  constructor
  · rw [own, List.cons_prefix_cons]
    exact ⟨rfl, fits⟩
  · intro s' h
    have mem := List.mem_map_of_mem (f := fun s : Symbol => s.text.toList) (mem_ledBy h)
    rw [led] at mem
    obtain ⟨l, hl, e⟩ := List.mem_map.mp mem
    rw [← e, List.cons_prefix_cons] at h
    rw [← String.length_toList, ← String.length_toList, own, ← e, List.length_cons,
      List.length_cons]
    exact Nat.succ_le_succ (longest l hl h.2)

/-- A symbol that is alone with its leading character. -/
theorem isLongest_of_alone {s : Symbol} {c : Char} (rest : List Char)
    (led : (ledBy c).map (fun s => s.text.toList) = [[c]]) (own : s.text.toList = [c]) :
    s.IsLongest (c :: rest) :=
  isLongest_of_tails [[]] [] led own List.nil_prefix (by simp)

/-- A character by itself, or with `=` behind it. -/
theorem isLongest_of_assigned {c : Char} {own assigned : Symbol} (rest : List Char)
    (led : (ledBy c).map (fun s => s.text.toList) = [['='], []].map (c :: ·))
    (single : own.text.toList = [c]) (pair : assigned.text.toList = [c, '=']) :
    IsLongest (match rest with | '=' :: _ => assigned | _ => own) (c :: rest) := by
  split
  · exact isLongest_of_tails _ ['='] led pair (by simp) (by simp)
  · exact isLongest_of_tails _ [] led single (by simp) (by simp_all [List.cons_prefix_iff])

theorem afterBang_isLongest (rest : List Char) : (afterBang rest).IsLongest ('!' :: rest) := by
  have led : (ledBy '!').map (fun s => s.text.toList) =
      [[], ['='], ['=', '=']].map ('!' :: ·) := by decide
  unfold afterBang
  split
  · exact isLongest_of_tails _ ['=', '='] led rfl (by simp) (by simp)
  · exact isLongest_of_tails _ ['='] led rfl (by simp) (by simp_all [List.cons_prefix_iff])
  · exact isLongest_of_tails _ [] led rfl (by simp) (by simp_all [List.cons_prefix_iff])

theorem afterPlus_isLongest (rest : List Char) : (afterPlus rest).IsLongest ('+' :: rest) := by
  have led : (ledBy '+').map (fun s => s.text.toList) =
      [['+'], ['='], []].map ('+' :: ·) := by decide
  unfold afterPlus
  split
  · exact isLongest_of_tails _ ['+'] led rfl (by simp) (by simp)
  · exact isLongest_of_tails _ ['='] led rfl (by simp) (by simp)
  · exact isLongest_of_tails _ [] led rfl (by simp) (by simp_all [List.cons_prefix_iff])

theorem afterMinus_isLongest (rest : List Char) : (afterMinus rest).IsLongest ('-' :: rest) := by
  have led : (ledBy '-').map (fun s => s.text.toList) =
      [['-'], ['='], []].map ('-' :: ·) := by decide
  unfold afterMinus
  split
  · exact isLongest_of_tails _ ['-'] led rfl (by simp) (by simp)
  · exact isLongest_of_tails _ ['='] led rfl (by simp) (by simp)
  · exact isLongest_of_tails _ [] led rfl (by simp) (by simp_all [List.cons_prefix_iff])

theorem afterStar_isLongest (rest : List Char) : (afterStar rest).IsLongest ('*' :: rest) :=
  isLongest_of_assigned rest (by decide) rfl rfl

theorem afterSlash_isLongest (rest : List Char) : (afterSlash rest).IsLongest ('/' :: rest) :=
  isLongest_of_assigned rest (by decide) rfl rfl

theorem afterPercent_isLongest (rest : List Char) : (afterPercent rest).IsLongest ('%' :: rest) :=
  isLongest_of_assigned rest (by decide) rfl rfl

theorem afterEquals_isLongest (rest : List Char) :
    (afterEquals rest).IsLongest ('=' :: rest) := by
  have led : (ledBy '=').map (fun s => s.text.toList) =
      [['>'], [], ['='], ['=', '=']].map ('=' :: ·) := by decide
  unfold afterEquals
  split
  · exact isLongest_of_tails _ ['=', '='] led rfl (by simp) (by simp)
  · exact isLongest_of_tails _ ['='] led rfl (by simp) (by simp_all [List.cons_prefix_iff])
  · exact isLongest_of_tails _ ['>'] led rfl (by simp) (by simp)
  · exact isLongest_of_tails _ [] led rfl (by simp) (by simp_all [List.cons_prefix_iff])

theorem afterGreater_isLongest (rest : List Char) :
    (afterGreater rest).IsLongest ('>' :: rest) := by
  have led : (ledBy '>').map (fun s => s.text.toList) =
      [['>', '>', '='], ['>', '='], [], ['='], ['>'], ['>', '>']].map ('>' :: ·) := by decide
  unfold afterGreater
  split
  · exact isLongest_of_tails _ ['>', '>', '='] led rfl (by simp) (by simp)
  · exact isLongest_of_tails _ ['>', '='] led rfl (by simp) (by simp)
  · exact isLongest_of_tails _ ['>', '>'] led rfl (by simp) (by simp_all [List.cons_prefix_iff])
  · exact isLongest_of_tails _ ['='] led rfl (by simp) (by simp)
  · exact isLongest_of_tails _ ['>'] led rfl (by simp) (by simp_all [List.cons_prefix_iff])
  · exact isLongest_of_tails _ [] led rfl (by simp) (by simp_all [List.cons_prefix_iff])

theorem afterLess_isLongest (rest : List Char) : (afterLess rest).IsLongest ('<' :: rest) := by
  have led : (ledBy '<').map (fun s => s.text.toList) =
      [['<', '='], [], ['='], ['<']].map ('<' :: ·) := by decide
  unfold afterLess
  split
  · exact isLongest_of_tails _ ['<', '='] led rfl (by simp) (by simp)
  · exact isLongest_of_tails _ ['<'] led rfl (by simp) (by simp_all [List.cons_prefix_iff])
  · exact isLongest_of_tails _ ['='] led rfl (by simp) (by simp)
  · exact isLongest_of_tails _ [] led rfl (by simp) (by simp_all [List.cons_prefix_iff])

theorem afterAmpersand_isLongest (rest : List Char) :
    (afterAmpersand rest).IsLongest ('&' :: rest) := by
  have led : (ledBy '&').map (fun s => s.text.toList) =
      [['='], [], ['&']].map ('&' :: ·) := by decide
  unfold afterAmpersand
  split
  · exact isLongest_of_tails _ ['&'] led rfl (by simp) (by simp)
  · exact isLongest_of_tails _ ['='] led rfl (by simp) (by simp)
  · exact isLongest_of_tails _ [] led rfl (by simp) (by simp_all [List.cons_prefix_iff])

theorem afterBar_isLongest (rest : List Char) : (afterBar rest).IsLongest ('|' :: rest) := by
  have led : (ledBy '|').map (fun s => s.text.toList) =
      [['='], [], ['|']].map ('|' :: ·) := by decide
  unfold afterBar
  split
  · exact isLongest_of_tails _ ['='] led rfl (by simp) (by simp)
  · exact isLongest_of_tails _ ['|'] led rfl (by simp) (by simp)
  · exact isLongest_of_tails _ [] led rfl (by simp) (by simp_all [List.cons_prefix_iff])

theorem afterCaret_isLongest (rest : List Char) : (afterCaret rest).IsLongest ('^' :: rest) :=
  isLongest_of_assigned rest (by decide) rfl rfl

theorem afterDot_isLongest (rest : List Char) : (afterDot rest).IsLongest ('.' :: rest) := by
  have led : (ledBy '.').map (fun s => s.text.toList) = [[], ['.', '.']].map ('.' :: ·) := by
    decide
  unfold afterDot
  split
  · exact isLongest_of_tails _ ['.', '.'] led rfl (by simp) (by simp)
  · next other =>
    refine isLongest_of_tails _ [] led rfl (by simp) ?_
    simp only [List.forall_mem_cons, List.cons_prefix_iff]
    refine ⟨fun _ => Nat.le_refl _, ?_, by simp⟩
    rintro ⟨_, rfl, tail, rfl, -⟩
    exact (other tail rfl).elim

/-! ## At the front of a text -/

theorem isLongest_of_atFront? {text : List Char} {s : Symbol} (h : atFront? text = some s) :
    s.IsLongest text := by
  unfold atFront? at h
  split at h <;> try rw [Option.some.injEq] at h; subst h
  case h_12 rest => exact afterBang_isLongest rest
  case h_13 rest => exact afterPlus_isLongest rest
  case h_14 rest => exact afterMinus_isLongest rest
  case h_15 rest => exact afterStar_isLongest rest
  case h_16 rest => exact afterSlash_isLongest rest
  case h_17 rest => exact afterPercent_isLongest rest
  case h_18 rest => exact afterEquals_isLongest rest
  case h_19 rest => exact afterGreater_isLongest rest
  case h_20 rest => exact afterLess_isLongest rest
  case h_21 rest => exact afterAmpersand_isLongest rest
  case h_22 rest => exact afterBar_isLongest rest
  case h_23 rest => exact afterCaret_isLongest rest
  case h_24 rest => exact afterDot_isLongest rest
  case h_25 => contradiction
  all_goals exact isLongest_of_alone _ (by decide) (by decide)

theorem atFront?_ne_none {text : List Char} {s : Symbol} (h : s.text.toList <+: text) :
    atFront? text ≠ none := by
  obtain ⟨rest, rfl⟩ := h
  cases s with
  | punctuator symbol => cases symbol <;> exact Option.some_ne_none _
  | assign op => cases op <;> exact Option.some_ne_none _
  | binary op => cases op <;> exact Option.some_ne_none _

theorem IsLongest.unique {text : List Char} {s s' : Symbol} (h : s.IsLongest text)
    (h' : s'.IsLongest text) : s = s' := by
  have same : s.text.toList.length = s'.text.toList.length := by
    rw [String.length_toList, String.length_toList]
    exact Nat.le_antisymm (h'.longest s h.fits) (h.longest s' h'.fits)
  have texts : s.text.toList = s'.text.toList :=
    (List.prefix_of_prefix_length_le h.fits h'.fits (Nat.le_of_eq same)).eq_of_length same
  exact eq_of_text_eq (String.toList_inj.mp texts)

/-- The symbol at the front of a text is the longest of the table that fits there. -/
theorem atFront?_eq_some_iff {text : List Char} {s : Symbol} :
    atFront? text = some s ↔ s.IsLongest text := by
  constructor
  · exact isLongest_of_atFront?
  · intro h
    obtain ⟨s', h'⟩ := Option.ne_none_iff_exists'.mp (atFront?_ne_none h.fits)
    rw [h', (isLongest_of_atFront? h').unique h]

/-! ## At a boundary -/

theorem prefix_append_iff {l text more : List Char} (h : ∀ c ∈ l, isBlank c = false)
    (boundary : AtBoundary more) : l <+: text ++ more ↔ l <+: text := by
  refine ⟨?_, fun fits => fits.trans (List.prefix_append text more)⟩
  induction text generalizing l with
  | nil =>
    intro fits
    cases l with
    | nil => exact List.nil_prefix
    | cons c l =>
      obtain ⟨more, rfl, -⟩ := List.cons_prefix_iff.mp fits
      rw [List.nil_append, atBoundary_cons] at *
      rw [h c List.mem_cons_self] at boundary
      contradiction
  | cons d text ih =>
    intro fits
    cases l with
    | nil => exact List.nil_prefix
    | cons c l =>
      rw [List.cons_append, List.cons_prefix_cons] at fits
      rw [List.cons_prefix_cons]
      exact ⟨fits.1, ih (fun c mem => h c (List.mem_cons_of_mem _ mem)) fits.2⟩

theorem isLongest_append_iff {s : Symbol} {text more : List Char} (boundary : AtBoundary more) :
    s.IsLongest (text ++ more) ↔ s.IsLongest text := by
  have same (s : Symbol) : s.text.toList <+: text ++ more ↔ s.text.toList <+: text :=
    prefix_append_iff (fun _ => not_isBlank_of_mem_text) boundary
  constructor
  · intro h
    exact ⟨(same s).mp h.fits, fun s' fits => h.longest s' ((same s').mpr fits)⟩
  · intro h
    exact ⟨(same s).mpr h.fits, fun s' fits => h.longest s' ((same s').mp fits)⟩

/-- Which symbol is the longest depends on the run ahead only. -/
theorem isLongest_congr {s : Symbol} {text text' : List Char} (same : run text = run text') :
    s.IsLongest text ↔ s.IsLongest text' := by
  have byRun (text : List Char) : s.IsLongest text ↔ s.IsLongest (run text) := by
    obtain ⟨more, e, boundary⟩ := exists_run text
    have appended : s.IsLongest (run text ++ more) ↔ s.IsLongest (run text) :=
      isLongest_append_iff boundary
    rwa [← e] at appended
  rw [byRun text, byRun text', same]

end ScriptLexer.Symbol
