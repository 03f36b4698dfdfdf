/-
  Texts that fall into two parts in one way only: the first part is what a condition holds of, and
  the second begins with a character of which it does not hold.
-/

namespace ScriptLexer

variable {p : Char → Bool} {front front' behind behind' : List Char}

theorem takeWhile_split (inside : ∀ c ∈ front, p c = true)
    (outside : ∀ c ∈ behind.head?, p c = false) : (front ++ behind).takeWhile p = front := by
  rw [List.takeWhile_append_of_pos inside]
  cases behind with
  | nil => simp
  | cons c behind => simp [outside c rfl]

theorem dropWhile_split (inside : ∀ c ∈ front, p c = true)
    (outside : ∀ c ∈ behind.head?, p c = false) : (front ++ behind).dropWhile p = behind := by
  rw [List.dropWhile_append_of_pos inside]
  cases behind with
  | nil => rfl
  | cons c behind => simp [outside c rfl]

theorem split_inj (inside : ∀ c ∈ front, p c = true) (outside : ∀ c ∈ behind.head?, p c = false)
    (inside' : ∀ c ∈ front', p c = true) (outside' : ∀ c ∈ behind'.head?, p c = false)
    (same : front ++ behind = front' ++ behind') : front = front' ∧ behind = behind' := by
  constructor
  · rw [← takeWhile_split inside outside, same, takeWhile_split inside' outside']
  · rw [← dropWhile_split inside outside, same, dropWhile_split inside' outside']

/-- A text is split at the first place where a character stands. -/
theorem split_first_inj {c : Char} (free : c ∉ front) (free' : c ∉ front')
    (same : front ++ c :: behind = front' ++ c :: behind') :
    front = front' ∧ behind = behind' := by
  have others {text : List Char} (free : c ∉ text) : ∀ d ∈ text, (d != c) = true :=
    fun d mem => bne_iff_ne.mpr fun same => free (same ▸ mem)
  have here {text : List Char} : ∀ d ∈ (c :: text).head?, (d != c) = false := by simp
  obtain ⟨fronts, tails⟩ := split_inj (others free) here (others free') here same
  exact ⟨fronts, (List.cons.inj tails).2⟩

/-- A text is split at the last place where a character stands. -/
theorem split_last_inj {c : Char} (free : c ∉ behind) (free' : c ∉ behind')
    (same : front ++ c :: behind = front' ++ c :: behind') :
    front = front' ∧ behind = behind' := by
  have turned := congrArg List.reverse same
  simp only [List.reverse_append, List.reverse_cons, List.append_assoc, List.cons_append,
    List.nil_append] at turned
  obtain ⟨tails, fronts⟩ := split_first_inj (mt List.mem_reverse.mp free)
    (mt List.mem_reverse.mp free') turned
  exact ⟨List.reverse_inj.mp fronts, List.reverse_inj.mp tails⟩

end ScriptLexer
