import Mathlib.Data.List.Basic
import ScriptLexer.Text.CharClass
import ScriptLexer.Text.Lines

/-
  Texts with their line breaks unified. A text has the same lines before and after
  (`splitLines_normalizeBreaks`), and parts of it may be unified one by one if no break is cut in
  two (`Unbroken`, `normalizeBreaks_append`). Hence a place that is not inside a break keeps its
  line and its column, though its offset changes (`SamePlace.positionAt`).
-/

namespace ScriptLexer

/-- No line break is cut in two between the texts. -/
def Unbroken (front behind : List Char) : Prop :=
  ¬(front.getLast? = some '\r' ∧ behind.head? = some '\n')

instance (front behind : List Char) : Decidable (Unbroken front behind) :=
  inferInstanceAs (Decidable (¬_))

theorem unbroken_of_getLast? {front : List Char} (h : front.getLast? ≠ some '\r')
    (behind : List Char) : Unbroken front behind := fun both => h both.1

theorem unbroken_of_head? {behind : List Char} (h : behind.head? ≠ some '\n')
    (front : List Char) : Unbroken front behind := fun both => h both.2

theorem unbroken_at_start (behind : List Char) : Unbroken [] behind := by
  simp [Unbroken]

theorem unbroken_at_end (front : List Char) : Unbroken front [] := by
  simp [Unbroken]

theorem unbroken_singleton {c : Char} {rest : List Char} :
    Unbroken [c] rest ↔ ¬(c = '\r' ∧ rest.head? = some '\n') := by
  simp [Unbroken]

theorem unbroken_of_ne {c : Char} (h : c ≠ '\r') (rest : List Char) : Unbroken [c] rest :=
  unbroken_singleton.mpr fun both => h both.1

/-- A character and the text behind it are unbroken or begin with a break of two characters. -/
theorem unbroken_or_pair (c : Char) (rest : List Char) :
    Unbroken [c] rest ∨ c = '\r' ∧ ∃ behind, rest = '\n' :: behind := by
  rw [unbroken_singleton, ← List.head?_eq_some_iff, or_comm]
  exact em _

theorem Unbroken.append {front middle behind : List Char} (first : Unbroken front (middle ++ behind))
    (second : Unbroken middle behind) : Unbroken (front ++ middle) behind := by
  cases middle with
  | nil => rwa [List.append_nil]
  | cons c middle =>
    have last : (front ++ c :: middle).getLast? = (c :: middle).getLast? :=
      List.getLast?_append_of_ne_nil _ (List.cons_ne_nil _ _)
    unfold Unbroken
    rw [last]
    exact second

theorem Unbroken.of_cons {c : Char} {front behind : List Char} (h : Unbroken (c :: front) behind) :
    Unbroken front behind := by
  rintro ⟨ret, feed⟩
  refine h ⟨?_, feed⟩
  rw [List.getLast?_cons, ret]
  rfl

theorem Unbroken.of_append {front middle behind : List Char}
    (h : Unbroken front (middle ++ behind)) : Unbroken front middle := by
  cases middle with
  | nil => exact unbroken_at_end front
  | cons c middle => exact h

theorem Unbroken.singleton_append {c : Char} {rest behind : List Char} (apart : Unbroken [c] rest)
    (whole : Unbroken (c :: rest) behind) : Unbroken [c] (rest ++ behind) := by
  cases rest with
  | nil => exact whole
  | cons d rest => exact apart

/-- Induction along a text, with a break of two characters in one step. -/
theorem breaksInduction {P : List Char → Prop} (nil : P [])
    (pair : ∀ rest, P rest → P ('\r' :: '\n' :: rest))
    (single : ∀ c rest, Unbroken [c] rest → P rest → P (c :: rest)) (text : List Char) :
    P text := by
  induction text using normalizeBreaks.induct with
  | case1 => exact nil
  | case2 rest ih => exact pair rest ih
  | case3 c rest apart ih =>
    refine single c rest (unbroken_singleton.mpr ?_) ih
    rintro ⟨rfl, feed⟩
    obtain ⟨behind, rfl⟩ := List.head?_eq_some_iff.mp feed
    exact apart behind rfl rfl

/-! ## Unified breaks -/

/-- What becomes of a character that is not half of a break. -/
def unified (c : Char) : Char := if c = '\r' then '\n' else c

theorem unified_of_ne {c : Char} (h : c ≠ '\r') : unified c = c := if_neg h

theorem unified_eq_iff {c d : Char} (feed : d ≠ '\n') (ret : d ≠ '\r') :
    unified c = d ↔ c = d := by
  unfold unified
  split
  · next h =>
    subst h
    exact ⟨fun e => absurd e.symm feed, fun e => absurd e.symm ret⟩
  · exact Iff.rfl

/-- A class with both halves of a break or none does not change. -/
theorem apply_unified {p : Char → Bool} (both : p '\n' = p '\r') (c : Char) :
    p (unified c) = p c := by
  unfold unified
  split
  · next h => rw [h, both]
  · rfl

theorem isBlank_unified (c : Char) : isBlank (unified c) = isBlank c :=
  apply_unified (by decide) c

theorem isLineTerminator_unified (c : Char) :
    isLineTerminator (unified c) = isLineTerminator c :=
  apply_unified (by decide) c

theorem normalizeBreaks_pair (rest : List Char) :
    normalizeBreaks ('\r' :: '\n' :: rest) = '\n' :: normalizeBreaks rest := by
  rw [normalizeBreaks]

theorem normalizeBreaks_cons {c : Char} {rest : List Char} (whole : Unbroken [c] rest) :
    normalizeBreaks (c :: rest) = unified c :: normalizeBreaks rest := by
  rw [normalizeBreaks, unified]
  rintro behind rfl rfl
  exact unbroken_singleton.mp whole ⟨rfl, rfl⟩

theorem normalizeBreaks_cons_of_ne {c : Char} (h : c ≠ '\r') (rest : List Char) :
    normalizeBreaks (c :: rest) = c :: normalizeBreaks rest := by
  rw [normalizeBreaks_cons (unbroken_of_ne h rest), unified_of_ne h]

theorem normalizeBreaks_return {rest : List Char} (feed : rest.head? = some '\n') :
    normalizeBreaks ('\r' :: rest) = normalizeBreaks rest := by
  obtain ⟨behind, rfl⟩ := List.head?_eq_some_iff.mp feed
  rw [normalizeBreaks_pair, normalizeBreaks_cons_of_ne (by decide)]

theorem head?_normalizeBreaks (text : List Char) :
    (normalizeBreaks text).head? = text.head?.map unified := by
  induction text using breaksInduction with
  | nil => rfl
  | pair rest _ =>
    rw [normalizeBreaks_pair]
    rfl
  | single c rest whole _ =>
    rw [normalizeBreaks_cons whole]
    rfl

theorem normalizeBreaks_append {front behind : List Char} (whole : Unbroken front behind) :
    normalizeBreaks (front ++ behind) = normalizeBreaks front ++ normalizeBreaks behind := by
  induction front using breaksInduction with
  | nil => rfl
  | pair rest ih =>
    rw [List.cons_append, List.cons_append, normalizeBreaks_pair, normalizeBreaks_pair,
      ih whole.of_cons.of_cons, List.cons_append]
  | single c rest apart ih =>
    rw [List.cons_append, normalizeBreaks_cons (apart.singleton_append whole),
      normalizeBreaks_cons apart, ih whole.of_cons, List.cons_append]

theorem normalizeBreaks_eq_self {text : List Char} (none : '\r' ∉ text) :
    normalizeBreaks text = text := by
  induction text with
  | nil => rfl
  | cons c rest ih =>
    rw [List.mem_cons, not_or] at none
    rw [normalizeBreaks_cons_of_ne (fun e => none.1 e.symm), ih none.2]

/-! ## Lines -/

theorem splitLines_pair (rest : List Char) :
    splitLines ('\r' :: '\n' :: rest) = [] :: splitLines rest := by
  rw [splitLines]

theorem splitLines_break {c : Char} {rest : List Char} (whole : Unbroken [c] rest)
    (ends : c = '\r' ∨ c = '\n') : splitLines (c :: rest) = [] :: splitLines rest := by
  rw [splitLines, if_pos ends]
  rintro behind rfl rfl
  exact unbroken_singleton.mp whole ⟨rfl, rfl⟩

theorem splitLines_congr {c : Char} {rest rest' : List Char} (inside : ¬(c = '\r' ∨ c = '\n'))
    (same : splitLines rest = splitLines rest') :
    splitLines (c :: rest) = splitLines (c :: rest') := by
  rw [not_or] at inside
  rw [splitLines, splitLines, same]
  · exact fun _ ret => absurd ret inside.1
  · exact fun _ ret => absurd ret inside.1

/-- A text with its breaks unified has the same lines. -/
theorem splitLines_normalizeBreaks (text : List Char) :
    splitLines (normalizeBreaks text) = splitLines text := by
  induction text using breaksInduction with
  | nil => rfl
  | pair rest ih =>
    rw [normalizeBreaks_pair, splitLines_pair,
      splitLines_break (unbroken_of_ne (by decide) _) (Or.inr rfl), ih]
  | single c rest whole ih =>
    rw [normalizeBreaks_cons whole]
    by_cases ends : c = '\r' ∨ c = '\n'
    · have feed : unified c = '\n' := by rcases ends with rfl | rfl <;> rfl
      rw [splitLines_break whole ends, feed,
        splitLines_break (unbroken_of_ne (by decide) _) (Or.inr rfl), ih]
    · rw [unified_of_ne fun ret => ends (Or.inl ret)]
      exact splitLines_congr ends ih

/-! ## Places -/

/-- Offset `i` of the text and offset `j` of the text with its breaks unified are the same place,
which is not inside a break. -/
def SamePlace (text : List Char) (i j : Nat) : Prop :=
  ∃ front behind, text = front ++ behind ∧ Unbroken front behind ∧ i = front.length ∧
    j = (normalizeBreaks front).length

theorem samePlace_zero (text : List Char) : SamePlace text 0 0 :=
  ⟨[], text, rfl, unbroken_at_start text, rfl, rfl⟩

theorem samePlace_length (text : List Char) :
    SamePlace text text.length (normalizeBreaks text).length :=
  ⟨text, [], (List.append_nil text).symm, unbroken_at_end text, rfl, rfl⟩

theorem take_clampOffset (front behind : List Char) :
    (front ++ behind).take (clampOffset (front ++ behind).length front.length) = front := by
  have le : front.length ≤ (front ++ behind).length :=
    List.length_append ▸ Nat.le_add_right _ _
  rw [clampOffset, Int.toNat_natCast, Nat.min_eq_left le, List.take_left]

namespace SamePlace

variable {text : List Char} {i j : Nat}

/-- A place of a text seen from further in front. -/
theorem append {front : List Char} (whole : Unbroken front text) (h : SamePlace text i j) :
    SamePlace (front ++ text) (front.length + i) ((normalizeBreaks front).length + j) := by
  obtain ⟨middle, behind, rfl, apart, rfl, rfl⟩ := h
  refine ⟨front ++ middle, behind, (List.append_assoc _ _ _).symm, whole.append apart,
    List.length_append.symm, ?_⟩
  rw [normalizeBreaks_append whole.of_append, List.length_append]

theorem cons {c : Char} (whole : Unbroken [c] text) (h : SamePlace text i j) :
    SamePlace (c :: text) (1 + i) (1 + j) := by
  have length : (normalizeBreaks [c]).length = 1 := by
    rw [normalizeBreaks_cons (unbroken_at_end [c])]
    rfl
  have shifted := h.append whole
  rwa [length] at shifted

/-- A carriage return in front of a line feed that is passed changes nothing. -/
theorem cons_return (feed : text.head? = some '\n') (pos : 0 < i) (h : SamePlace text i j) :
    SamePlace ('\r' :: text) (1 + i) j := by
  obtain ⟨front, behind, rfl, apart, rfl, rfl⟩ := h
  cases front with
  | nil => exact absurd pos (Nat.lt_irrefl 0)
  | cons c front =>
    obtain rfl : c = '\n' := Option.some.inj feed
    refine ⟨'\r' :: '\n' :: front, behind, rfl, ?_, Nat.add_comm _ _, ?_⟩
    · unfold Unbroken
      rw [List.getLast?_cons_cons]
      exact apart
    · rw [normalizeBreaks_return rfl]

theorem take_eq (h : SamePlace text i j) :
    (normalizeBreaks text).take j = normalizeBreaks (text.take i) := by
  obtain ⟨front, behind, rfl, apart, rfl, rfl⟩ := h
  rw [normalizeBreaks_append apart, List.take_left, List.take_left]

theorem length_take (h : SamePlace text i j) : (normalizeBreaks (text.take i)).length = j := by
  obtain ⟨front, behind, rfl, -, rfl, rfl⟩ := h
  rw [List.take_left]

/-- A place has the same line and column in both texts. -/
theorem positionAt (h : SamePlace text i j) :
    (positionAt (normalizeBreaks text) j).line = (positionAt text i).line ∧
    (positionAt (normalizeBreaks text) j).column = (positionAt text i).column := by
  obtain ⟨front, behind, rfl, apart, rfl, rfl⟩ := h
  simp only [ScriptLexer.positionAt, normalizeBreaks_append apart, take_clampOffset,
    splitLines_normalizeBreaks, and_self]

end SamePlace

/-- In a text without a carriage return nothing moves. -/
theorem samePlace_of_take {text : List Char} {i : Nat} (le : i ≤ text.length)
    (none : '\r' ∉ text.take i) : SamePlace text i i := by
  have length : (text.take i).length = i := List.length_take_of_le le
  refine ⟨text.take i, text.drop i, (List.take_append_drop i text).symm, ?_, length.symm, ?_⟩
  · exact unbroken_of_getLast? (fun last => none (List.mem_of_getLast? last)) _
  · rw [normalizeBreaks_eq_self none, length]

end ScriptLexer
